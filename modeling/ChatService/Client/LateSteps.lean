import ChatService.Client.CallContract

/-!
# Asynchronous steps of calls that are over

When a promise is settled, the call for which it was asked may be over, and another one may have begun.  A step of
the web client that settles a promise is `Confined` if it neither sends a message about another call than the one
it was started for nor changes the phase of another call.

The steps of an earlier call hold on to its `WebRtcCall`, which is closed (`WebClient.Bound`).  The functions that
find it closed throw, and `handleCallProtocolMessage` answers an error with `handleLocalCallFailure`, which ends
whatever call there is: unlike `acceptIncomingCall`, it does not compare call ids.  So a step is confined unless it
fails in this way while another call is under way (`settle_confined_iff`, `settlements_confined_iff`).
-/

namespace ChatService

/-! ### The property -/

/-- What happens to a client. -/
inductive ClientStep where
  | input (input : ClientInput)
  | message (message : ServerMessage)
deriving DecidableEq

namespace WebClient

def step (c : WebClient) : ClientStep → WebClient
  | .input input => if c.allows input then c.onInput input else c
  | .message message => c.handleCallProtocolMessage message

/-- To settle the promise sends messages only about the call that it was asked for, and leaves the phase of any
other call as it is. -/
def Confined (c : WebClient) (index : ℕ) (settled : Settled) : Prop :=
  ∀ task ∈ c.tasks[index]?,
    (∀ message ∈ (c.settle index settled).sent.drop c.sent.length, message.callId = task.callId) ∧
      (c.call.callId ≠ task.callId → (c.settle index settled).call.phase = c.call.phase)

instance (c : WebClient) (index : ℕ) (settled : Settled) : Decidable (c.Confined index settled) :=
  inferInstanceAs (Decidable (∀ task ∈ c.tasks[index]?, _ ∧ _))

/-- `P` holds wherever a run settles a promise. -/
def WhereSettled (P : WebClient → ℕ → Settled → Prop) : WebClient → List ClientStep → Prop
  | _, [] => True
  | c, s :: steps =>
    (∀ index settled, s = .input (.settle index settled) → P c index settled) ∧ WhereSettled P (c.step s) steps

end WebClient

/-- What comes after the promise of a call that is over ends in an error that `handleCallProtocolMessage`
catches: the promise is rejected, or the function goes on to use the peer connection. -/
def AwaitedPromise.Fails : AwaitedPromise → Settled → Prop
  | getUserMedia .acceptIncomingCall, _ => False
  | _, .rejected => True
  | flushCandidate 0 .receiveAnswer, .resolved _ => False
  | setRemoteAnswer, .resolved _ => False
  | addIceCandidate, .resolved _ => False
  | _, .resolved _ => True

namespace WebClient

/-- If there is a call, it is the one that the promise was asked for, or the function does not fail. -/
def Settles (c : WebClient) (index : ℕ) (settled : Settled) : Prop :=
  ∀ task ∈ c.tasks[index]?, c.hasCurrentCall = true → task.awaited.Fails settled → c.call.callId = task.callId

/-! ### Asynchronous functions and their calls -/

/-- If `w` is the `WebRtcCall` of the current call, then `callId` is its id. -/
def Names (c : WebClient) (w : ℕ) (callId : Bytes) : Prop := c.call.webrtc = some w → callId = c.call.callId

/-- Only a call that is under way has a `WebRtcCall`, and the asynchronous functions that use it were started for
this call. -/
structure Bound (c : WebClient) : Prop extends Tidy c where
  active : ∀ w, c.call.webrtc = some w → c.slot.view ≠ .inactive
  named_tasks : ∀ task ∈ c.tasks, c.Names task.webrtc task.callId

section

variable {c : WebClient} {w : ℕ} {callId : Bytes}

theorem Tidy.bound (h : c.Tidy) (hnone : c.call.webrtc = none) : c.Bound where
  toTidy := h
  active _ hw := absurd (hnone.symm.trans hw) nofun
  named_tasks _ _ hw := absurd (hnone.symm.trans hw) nofun

/-- Without a call under way there is no `WebRtcCall`. -/
theorem Bound.none_of_inactive (h : c.Bound) (hinactive : c.slot.view = .inactive) : c.call.webrtc = none := by
  cases hw : c.call.webrtc with
  | none => rfl
  | some w => exact absurd hinactive (h.active w hw)

theorem active_of_phase {phase : CallPhase} (hphase : c.call.phase = phase) (hactive : phase.view ≠ .inactive) :
    c.slot.view ≠ .inactive := by
  show c.call.phase.view ≠ .inactive
  rwa [hphase]

theorem active_of_connecting (h : ¬ (c.call.phase ≠ .connecting ∧ c.call.phase ≠ .inCall)) :
    c.slot.view ≠ .inactive := by
  by_cases hphase : c.call.phase = .connecting
  · exact active_of_phase hphase nofun
  · exact active_of_phase (not_not.mp fun hinCall => h ⟨hphase, hinCall⟩) nofun

/-! #### Updates -/

theorem made_cleanupWebRtc (c : WebClient) : c.cleanupWebRtc.made = c.made := by
  rw [WebClient.cleanupWebRtc]
  split <;> rfl

theorem Bound.finishCall (h : c.Bound) : c.finishCall.Bound :=
  h.toTidy.finishCall.toTidy.bound (webrtc_cleanupWebRtc _)

theorem Bound.resetCallState (h : c.Bound) : c.resetCallState.Bound :=
  h.toTidy.resetCallState.toTidy.bound (webrtc_cleanupWebRtc _)

theorem Bound.cleanupWebRtc (h : c.Bound) : c.cleanupWebRtc.Bound :=
  h.toTidy.cleanupWebRtc.toTidy.bound (webrtc_cleanupWebRtc _)

theorem Bound.sendMessage (h : c.Bound) (message : ClientMessage) : (c.sendMessage message).Bound :=
  ⟨⟨h.made, h.closed, h.started, h.named⟩, h.active, h.named_tasks⟩

theorem Bound.sendCurrentCallMessage (h : c.Bound) (type : CallType) (payload : Bytes) :
    (c.sendCurrentCallMessage type payload).2.Bound := by
  rw [WebClient.sendCurrentCallMessage]
  split_ifs
  · exact h
  · exact h.sendMessage _

theorem Bound.handleLocalCallFailure (h : c.Bound) : c.handleLocalCallFailure.Bound := by
  rw [WebClient.handleLocalCallFailure]
  split_ifs
  · exact h
  · exact (h.sendCurrentCallMessage ..).finishCall
  · exact (h.sendCurrentCallMessage ..).finishCall
  · exact (h.sendCurrentCallMessage ..).finishCall

/-- The call is under way, and keeps its id. -/
theorem Bound.withCall (h : c.Bound) {call : ClientCall} (hwebrtc : call.webrtc = c.call.webrtc)
    (hid : call.callId = c.call.callId) (hpeer : call.peer = c.call.peer) (hactive : c.slot.view ≠ .inactive)
    (hactive' : call.phase.view ≠ .inactive) : (c.withCall call).Bound := by
  refine ⟨⟨?_, ?_, h.started, ?_⟩, fun _ _ => hactive', ?_⟩
  · exact fun w hw => h.made w (hwebrtc.symm.trans hw)
  · intro w hw
    refine h.closed w ?_
    rw [← hwebrtc]
    exact hw
  · intro _
    show call.callId ≠ [] ∧ call.peer ≠ []
    rw [hid, hpeer]
    exact h.named hactive
  · intro task htask hw
    exact (h.named_tasks task htask (hwebrtc.symm.trans hw)).trans hid.symm

/-- A `WebRtcCall` changes that is the current one, or stays closed. -/
theorem Bound.withWebRtc (h : c.Bound) {value : WebRtcCall}
    (hvalue : c.call.webrtc = some w ∨ (c.webrtcs w = .closed → value = .closed)) :
    (c.withWebRtc w value).Bound := by
  refine ⟨⟨h.made, ?_, h.started, h.named⟩, h.active, h.named_tasks⟩
  intro w' hw'
  by_cases hw : w' = w
  · subst hw
    rcases hvalue with hcurrent | hclosed
    · exact absurd hcurrent hw'
    · exact (Function.update_self ..).trans (hclosed (h.closed w' hw'))
  · exact (Function.update_of_ne hw _ _).trans (h.closed w' hw')

theorem Bound.await (h : c.Bound) (hw : w < c.made) (hnames : c.Names w callId) (awaited : AwaitedPromise) :
    (c.await w callId awaited).Bound := by
  refine ⟨⟨h.made, h.closed, ?_, h.named⟩, h.active, ?_⟩
  · intro task htask
    rcases List.mem_append.mp htask with hold | hnew
    · exact h.started task hold
    · rw [List.mem_singleton.mp hnew]
      exact hw
  · intro task htask
    rcases List.mem_append.mp htask with hold | hnew
    · exact h.named_tasks task hold
    · rw [List.mem_singleton.mp hnew]
      exact hnames

/-! #### Asynchronous functions -/

/-- What asynchronous functions do that use `w` and were started for the call `callId`. -/
inductive Updates (w : ℕ) (callId : Bytes) : WebClient → WebClient → Prop where
  | refl (c : WebClient) : Updates w callId c c
  | trans {c c' c'' : WebClient} : Updates w callId c c' → Updates w callId c' c'' → Updates w callId c c''
  | send (c : WebClient) (type : CallType) (payload : Bytes) :
    Updates w callId c (c.sendCurrentCallMessage type payload).2
  | finish (c : WebClient) : Updates w callId c c.finishCall
  | cleanup (c : WebClient) : Updates w callId c c.cleanupWebRtc
  | webRtc {c : WebClient} {value : WebRtcCall} :
    c.call.webrtc = some w ∨ (c.webrtcs w = .closed → value = .closed) → Updates w callId c (c.withWebRtc w value)
  | await (c : WebClient) (awaited : AwaitedPromise) : Updates w callId c (c.await w callId awaited)
  | connecting {c : WebClient} : c.slot.view ≠ .inactive →
    Updates w callId c (c.withPhase .connecting).startMediaConnectionTimeout

/-- Functions stay bound to their calls. -/
theorem Updates.bound {c' : WebClient} (h : Updates w callId c c') (hbound : c.Bound) (hw : w < c.made)
    (hnames : c.Names w callId) : c'.Bound ∧ w < c'.made ∧ c'.Names w callId := by
  induction h with
  | refl c => exact ⟨hbound, hw, hnames⟩
  | trans _ _ ih ih' =>
    obtain ⟨hbound, hw, hnames⟩ := ih hbound hw hnames
    exact ih' hbound hw hnames
  | send c type payload =>
    refine ⟨hbound.sendCurrentCallMessage type payload, ?_⟩
    rw [sendCurrentCallMessage]
    split_ifs <;> exact ⟨hw, hnames⟩
  | finish c =>
    refine ⟨hbound.finishCall, ?_, fun hwebrtc => absurd ((webrtc_cleanupWebRtc _).symm.trans hwebrtc) nofun⟩
    exact hw.trans_eq (made_cleanupWebRtc c.clearCallTimeout).symm
  | cleanup c =>
    refine ⟨hbound.cleanupWebRtc, ?_, fun hwebrtc => absurd ((webrtc_cleanupWebRtc _).symm.trans hwebrtc) nofun⟩
    exact hw.trans_eq (made_cleanupWebRtc c).symm
  | webRtc hvalue => exact ⟨hbound.withWebRtc hvalue, hw, hnames⟩
  | await c awaited => exact ⟨hbound.await hw hnames awaited, hw, hnames⟩
  | connecting hactive => exact ⟨hbound.withCall rfl rfl rfl hactive nofun, hw, hnames⟩

/-- The call keeps its id, and what is sent is about it. -/
theorem Updates.sends {c' : WebClient} (h : Updates w callId c c') : c'.call.callId = c.call.callId ∧
    ∃ messages, c'.sent = c.sent ++ messages ∧ ∀ m ∈ messages, m.callId = c.call.callId := by
  have hnothing : ∀ c : WebClient, ∃ messages, c.sent = c.sent ++ messages ∧ ∀ m ∈ messages,
      m.callId = c.call.callId := fun c => ⟨[], (List.append_nil _).symm, fun _ hm => absurd hm List.not_mem_nil⟩
  induction h with
  | refl c => exact ⟨rfl, hnothing c⟩
  | trans _ _ ih ih' =>
    obtain ⟨hid, messages, hsent, hmessages⟩ := ih
    obtain ⟨hid', messages', hsent', hmessages'⟩ := ih'
    refine ⟨hid'.trans hid, messages ++ messages', ?_, ?_⟩
    · rw [hsent', hsent, List.append_assoc]
    · intro m hm
      rcases List.mem_append.mp hm with hm | hm
      · exact hmessages m hm
      · exact (hmessages' m hm).trans hid
  | send c type payload =>
    rw [sendCurrentCallMessage]
    split_ifs
    · exact ⟨rfl, hnothing c⟩
    · exact ⟨rfl, _, rfl, fun m hm => congrArg ClientMessage.callId (List.mem_singleton.mp hm)⟩
  | finish c =>
    obtain ⟨hslot, hsent, -⟩ := finishCall_slot c
    refine ⟨congrArg CallSlot.callId hslot, ?_⟩
    rw [hsent]
    exact hnothing c
  | cleanup c =>
    have hquiet := quiet_cleanupWebRtc c
    refine ⟨congrArg CallSlot.callId hquiet.slot, ?_⟩
    rw [hquiet.sent]
    exact hnothing c
  | webRtc => exact ⟨rfl, hnothing _⟩
  | await c awaited => exact ⟨rfl, hnothing c⟩
  | connecting => exact ⟨rfl, hnothing _⟩

theorem updates_leave (c : WebClient) (type : CallType) (payload : Bytes) :
    Updates w callId c (c.sendCurrentCallMessage type payload).2.finishCall := (Updates.send c ..).trans (.finish _)

theorem updates_handleLocalCallFailure (c : WebClient) : Updates w callId c c.handleLocalCallFailure := by
  rw [handleLocalCallFailure]
  split_ifs
  · exact .refl c
  · exact updates_leave c ..
  · exact updates_leave c ..
  · exact updates_leave c ..

theorem updates_awaitPeerConnection (c : WebClient) (awaited : AwaitedPromise) :
    Updates w callId c (c.awaitPeerConnection w callId awaited) := by
  rw [awaitPeerConnection]
  split_ifs
  · exact updates_handleLocalCallFailure c
  · exact .await c awaited

theorem updates_mediaReady (c : WebClient) (next : MediaNext) : Updates w callId c (c.mediaReady w callId next) := by
  cases next with
  | acceptIncomingCall =>
    rw [mediaReady]
    split_ifs with hover
    · exact .cleanup c
    · obtain ⟨hphase, -⟩ := not_or.mp hover
      have hconnecting : Updates w callId c (c.withPhase .connecting).startMediaConnectionTimeout :=
        .connecting (active_of_phase (not_not.mp hphase) (by decide))
      dsimp only
      split_ifs
      · exact hconnecting.trans (.send ..)
      · exact (hconnecting.trans (.send ..)).trans (.finish _)
  | startAsCaller => exact updates_awaitPeerConnection c _
  | receiveOffer => exact updates_awaitPeerConnection c _

theorem updates_mediaFailed (c : WebClient) (id : Bytes) (next : MediaNext) :
    Updates w callId c (c.mediaFailed id next) := by
  cases next with
  | acceptIncomingCall =>
    rw [mediaFailed]
    split_ifs
    · exact updates_leave c ..
    · exact .refl c
  | startAsCaller => exact updates_handleLocalCallFailure c
  | receiveOffer => exact updates_handleLocalCallFailure c

theorem updates_prepareMedia (hw : c.call.webrtc = some w) (next : MediaNext) :
    Updates w callId c (c.prepareMedia w callId next) := by
  rw [prepareMedia]
  split_ifs
  · exact updates_mediaReady c next
  · exact (Updates.webRtc (.inl hw)).trans (.await ..)

theorem updates_gotUserMedia (h : c.Tidy) (next : MediaNext) : Updates w callId c (c.gotUserMedia w callId next) := by
  rw [gotUserMedia]
  split_ifs with hclosing
  · exact (Updates.webRtc (.inr fun _ => rfl)).trans (updates_mediaFailed ..)
  · have hcurrent : c.call.webrtc = some w := by
      refine h.current fun hclosed => hclosing ?_
      rw [hclosed]
      rfl
    exact (Updates.webRtc (.inl hcurrent)).trans (updates_mediaReady ..)

theorem updates_flushed (c : WebClient) (next : FlushNext) : Updates w callId c (c.flushed w callId next) := by
  cases next with
  | receiveOffer => exact updates_awaitPeerConnection c _
  | receiveAnswer => exact .refl c

theorem updates_flushCandidates (c : WebClient) (next : FlushNext) (rest : ℕ) :
    Updates w callId c (c.flushCandidates w callId next rest) := by
  cases rest with
  | zero => exact updates_flushed c next
  | succ rest => exact updates_awaitPeerConnection c _

theorem updates_flushPendingIceCandidates (c : WebClient) (next : FlushNext) :
    Updates w callId c (c.flushPendingIceCandidates w callId next) := by
  rw [flushPendingIceCandidates]
  split
  · exact updates_flushed c next
  · split_ifs
    · exact updates_flushed c next
    · refine Updates.trans (.webRtc (.inr fun hclosed => ?_)) (updates_flushCandidates _ next _)
      rw [hclosed]
      rfl

theorem updates_remoteDescriptionSet (c : WebClient) (next : FlushNext) :
    Updates w callId c (c.remoteDescriptionSet w callId next) := by
  refine Updates.trans (.webRtc (.inr fun hclosed => ?_)) (updates_flushPendingIceCandidates _ next)
  rw [hclosed]
  rfl

theorem updates_sendDescription (c : WebClient) (type : CallType) (description : ObjectText) :
    Updates w callId c (c.sendDescription w type description) := by
  rw [sendDescription]
  split_ifs
  · exact updates_handleLocalCallFailure c
  · exact .send c type _

theorem updates_addIceCandidate (hw : c.call.webrtc = some w) (candidate : Bytes) :
    Updates w callId c (c.addIceCandidate w callId candidate) := by
  rw [addIceCandidate]
  split_ifs
  · exact .refl c
  · split
    · exact .await c _
    · exact .webRtc (.inl hw)

theorem updates_onResolved (h : c.Tidy) (description : ObjectText) (awaited : AwaitedPromise) :
    Updates w callId c (c.onResolved w callId description awaited) := by
  cases awaited with
  | getUserMedia next => exact updates_gotUserMedia h next
  | createOffer => exact updates_awaitPeerConnection c _
  | setLocalOffer => exact updates_sendDescription c .offer description
  | setRemoteOffer => exact updates_remoteDescriptionSet c .receiveOffer
  | flushCandidate rest next => exact updates_flushCandidates c next rest
  | createAnswer => exact updates_awaitPeerConnection c _
  | setLocalAnswer => exact updates_sendDescription c .answer description
  | setRemoteAnswer => exact updates_remoteDescriptionSet c .receiveAnswer
  | addIceCandidate => exact .refl c

theorem updates_onRejected (c : WebClient) (awaited : AwaitedPromise) :
    Updates w callId c (c.onRejected w callId awaited) := by
  cases awaited with
  | getUserMedia next => exact (Updates.webRtc (.inr fun _ => rfl)).trans (updates_mediaFailed ..)
  | _ => exact updates_handleLocalCallFailure c

/-- A promise leaves the list of those that are awaited. -/
theorem Bound.eraseTask (h : c.Bound) (index : ℕ) :
    ({ c with tasks := c.tasks.eraseIdx index } : WebClient).Bound :=
  ⟨⟨h.made, h.closed, fun task htask => h.started task (List.mem_of_mem_eraseIdx htask), h.named⟩,
    h.active, fun task htask => h.named_tasks task (List.mem_of_mem_eraseIdx htask)⟩

/-- A promise is settled, and the function that waits for it goes on. -/
theorem updates_settle (h : c.Bound) {index : ℕ} {task : Task} (htask : c.tasks[index]? = some task)
    (settled : Settled) :
    Updates task.webrtc task.callId { c with tasks := c.tasks.eraseIdx index } (c.settle index settled) := by
  rw [settle, htask]
  cases settled with
  | rejected => exact updates_onRejected ..
  | resolved description => exact updates_onResolved (h.eraseTask index).toTidy ..

theorem Bound.settle (h : c.Bound) (index : ℕ) (settled : Settled) : (c.settle index settled).Bound := by
  cases htask : c.tasks[index]? with
  | none =>
    rw [WebClient.settle, htask]
    exact h
  | some task =>
    have hmem : task ∈ c.tasks := List.mem_of_getElem? htask
    exact ((updates_settle h htask settled).bound (h.eraseTask index) (h.started task hmem)
      (h.named_tasks task hmem)).1

/-! #### Inputs and messages -/

/-- The current call gets its `WebRtcCall`. -/
theorem Bound.ensureWebRtc (h : c.Bound) (hactive : c.slot.view ≠ .inactive) :
    c.ensureWebRtc.2.Bound ∧ c.ensureWebRtc.2.call.webrtc = some c.ensureWebRtc.1 ∧
      c.ensureWebRtc.2.call.callId = c.call.callId := by
  rw [WebClient.ensureWebRtc]
  split
  · next w hw => exact ⟨h, hw, rfl⟩
  · next hnone =>
    refine ⟨⟨⟨?_, ?_, ?_, h.named⟩, fun _ _ => hactive, ?_⟩, rfl, rfl⟩
    · intro w hw
      rw [← Option.some.inj hw]
      exact Nat.lt_succ_self _
    · intro w hw
      have hne : w ≠ c.made := by
        rintro rfl
        exact hw rfl
      refine (Function.update_of_ne hne _ _).trans (h.closed w ?_)
      rw [hnone]
      exact (Option.some_ne_none w).symm
    · exact fun task htask => Nat.lt_succ_of_lt (h.started task htask)
    · -- nothing waits for what has just been made
      intro task htask hw
      exact absurd (Option.some.inj hw).symm (h.started task htask).ne

theorem Bound.clearCallTimeout (h : c.Bound) : c.clearCallTimeout.Bound :=
  ⟨⟨h.made, h.closed, h.started, h.named⟩, h.active, h.named_tasks⟩

/-- The last call is dismissed before a new one begins. -/
theorem Bound.dismissed (h : c.Bound) (hinactive : c.slot.view = .inactive) :
    (if c.call.phase = .finished then c.resetCallState else c).Tidy ∧
      (if c.call.phase = .finished then c.resetCallState else c).call.webrtc = none := by
  split_ifs
  · exact ⟨h.resetCallState.toTidy, webrtc_cleanupWebRtc _⟩
  · exact ⟨h.toTidy, h.none_of_inactive hinactive⟩

/-- A call begins, which has no `WebRtcCall` yet. -/
theorem Tidy.begin (h : c.Tidy) (hnone : c.call.webrtc = none) {call : ClientCall} (hwebrtc : call.webrtc = none)
    (hnamed : call.callId ≠ [] ∧ call.peer ≠ []) : (c.withCall call).Bound :=
  (h.withCall hnone hwebrtc fun _ => hnamed).toTidy.bound hwebrtc

theorem Bound.startVideoCall (h : c.Bound) (peer callId : Bytes) : (c.startVideoCall peer callId).Bound := by
  rw [WebClient.startVideoCall]
  by_cases hself : peer = c.username
  · rwa [if_pos hself]
  rw [if_neg hself]
  by_cases hcurrent : c.hasCurrentCall
  · rwa [if_pos hcurrent]
  rw [if_neg hcurrent]
  have hinactive : c.slot.view = .inactive := hasCurrentCall_eq_false_iff.mp (Bool.not_eq_true _ ▸ hcurrent)
  obtain ⟨htidy, hnone⟩ := h.dismissed hinactive
  dsimp only
  generalize (if c.call.phase = .finished then c.resetCallState else c) = c₀ at htidy hnone ⊢
  by_cases hnames : callId = [] ∨ peer = []
  · -- there is nothing to send about, and the call is finished at once
    rw [sendCurrentCallMessage_of_unnamed (by exact hnames)]
    show (c₀.withCall ⟨.outgoing, callId, peer, .outgoing, c₀.call.timeoutId, c₀.call.webrtc⟩).finishCall.Bound
    rw [finishCall_of_none (by exact hnone)]
    have hfinished : (c₀.withCall ⟨.finished, callId, peer, .outgoing, none, c₀.call.webrtc⟩).Ok :=
      htidy.withCall hnone hnone fun hactive => absurd rfl hactive
    exact hfinished.toTidy.bound hnone
  · rw [sendCurrentCallMessage_of_named (by exact hnames)]
    have hbegun : (c₀.withCall ⟨.outgoing, callId, peer, .outgoing, some (.noAnswer callId), none⟩).Bound :=
      htidy.begin hnone rfl (not_or.mp hnames)
    rw [← hnone] at hbegun
    exact hbegun.sendMessage _

theorem Bound.acceptIncomingCall (h : c.Bound) : c.acceptIncomingCall.Bound := by
  rw [WebClient.acceptIncomingCall]
  split_ifs with hphase
  · exact h
  · obtain ⟨hbound, hw, hid⟩ := h.ensureWebRtc (active_of_phase (not_not.mp hphase) (by decide))
    exact ((updates_prepareMedia hw _).bound hbound (hbound.made _ hw) fun _ => hid.symm).1

theorem Bound.fireTimeout (h : c.Bound) : c.fireTimeout.Bound := by
  rw [WebClient.fireTimeout]
  split
  · exact h
  · dsimp only
    split_ifs
    · exact (h.clearCallTimeout.sendCurrentCallMessage ..).finishCall
    · exact h.clearCallTimeout
  · dsimp only
    split_ifs
    · exact (h.clearCallTimeout.sendCurrentCallMessage ..).finishCall
    · exact h.clearCallTimeout

theorem Bound.onConnected (h : c.Bound) : c.onConnected.Bound := by
  rw [WebClient.onConnected]
  split_ifs with hcurrent
  · exact h.withCall rfl rfl rfl (hasCurrentCall_iff.mp hcurrent) fun hview => by cases hview
  · exact h

theorem Bound.onConnectionEvent (h : c.Bound) (w : ℕ) (event : ConnectionEvent) :
    (c.onConnectionEvent w event).Bound := by
  cases event with
  | icecandidate candidate => exact h.sendCurrentCallMessage ..
  | track => exact h.onConnected
  | connected =>
    rw [WebClient.onConnectionEvent]
    split_ifs
    · exact h
    · exact h.onConnected
  | failed =>
    rw [WebClient.onConnectionEvent]
    split_ifs
    · exact h
    · exact h.handleLocalCallFailure

theorem Bound.onInput (h : c.Bound) (input : ClientInput) : (c.onInput input).Bound := by
  have hleave : ∀ type payload, (c.sendCurrentCallMessage type payload).2.finishCall.Bound :=
    fun type payload => (h.sendCurrentCallMessage type payload).finishCall
  cases input with
  | startVideoCall peer callId => exact h.startVideoCall peer callId
  | acceptIncomingCall => exact h.acceptIncomingCall
  | rejectIncomingCall =>
    rw [WebClient.onInput, rejectIncomingCall]
    split_ifs
    · exact h
    · exact hleave ..
  | cancelOutgoingCall =>
    rw [WebClient.onInput, cancelOutgoingCall]
    split_ifs
    · exact h
    · exact hleave ..
  | hangupActiveCall =>
    rw [WebClient.onInput, hangupActiveCall]
    split_ifs
    · exact h
    · exact hleave ..
  | dismissCall => exact h.resetCallState
  | timeout => exact h.fireTimeout
  | settle index settled => exact h.settle index settled
  | connection w event => exact h.onConnectionEvent w event

theorem Bound.handleInvite (h : c.Bound) (message : ServerMessage) : (c.handleInvite message).Bound := by
  rw [WebClient.handleInvite]
  by_cases hnobody : message.sender = [] ∨ message.callId = []
  · rwa [if_pos hnobody]
  rw [if_neg hnobody]
  by_cases hcurrent : c.hasCurrentCall
  · rw [if_pos hcurrent]
    exact h.sendMessage _
  rw [if_neg hcurrent]
  have hinactive : c.slot.view = .inactive := hasCurrentCall_eq_false_iff.mp (Bool.not_eq_true _ ▸ hcurrent)
  obtain ⟨htidy, hnone⟩ := h.dismissed hinactive
  dsimp only
  generalize (if c.call.phase = .finished then c.resetCallState else c) = c₀ at htidy hnone ⊢
  exact htidy.begin hnone hnone (not_or.mp hnobody).symm

/-- Signaling is taken by the `WebRtcCall` of the current call. -/
theorem Bound.signaling (h : c.Bound) {f : ℕ → WebClient → WebClient}
    (hf : ∀ w (c' : WebClient), c'.call.webrtc = some w → Updates w c'.call.callId c' (f w c')) :
    (if c.call.phase ≠ .connecting ∧ c.call.phase ≠ .inCall then c
      else f c.ensureWebRtc.1 c.ensureWebRtc.2).Bound := by
  split_ifs with hphase
  · exact h
  · obtain ⟨hbound, hw, -⟩ := h.ensureWebRtc (active_of_connecting hphase)
    exact ((hf _ _ hw).bound hbound (hbound.made _ hw) fun _ => rfl).1

theorem Bound.handleCallProtocolMessage (h : c.Bound) (message : ServerMessage) :
    (c.handleCallProtocolMessage message).Bound := by
  rw [WebClient.handleCallProtocolMessage]
  by_cases hinvite : message.type = .event .invite
  · rw [if_pos hinvite]
    exact h.handleInvite message
  rw [if_neg hinvite]
  by_cases hother : message.callId = [] ∨ message.callId ≠ c.call.callId
  · rwa [if_pos hother]
  rw [if_neg hother]
  split
  · by_cases hphase : c.call.phase = .outgoing
    · rw [if_neg (not_not.mpr hphase)]
      have hactive : c.slot.view ≠ .inactive := active_of_phase hphase (by decide)
      have hconnecting : (c.clearCallTimeout.withPhase .connecting).startMediaConnectionTimeout.Bound :=
        h.withCall rfl rfl rfl hactive fun hview => by cases hview
      obtain ⟨hbound, hw, -⟩ := hconnecting.ensureWebRtc fun hview => by cases hview
      exact ((updates_prepareMedia hw _).bound hbound (hbound.made _ hw) fun _ => rfl).1
    · rwa [if_pos hphase]
  · exact h.signaling fun w c' hw => updates_prepareMedia hw .receiveOffer
  · exact h.signaling fun w c' _ => updates_awaitPeerConnection c' .setRemoteAnswer
  · exact h.signaling fun w c' hw => updates_addIceCandidate hw message.candidate
  · exact h.finishCall

/-- **Whatever happens**, asynchronous functions stay bound to their calls. -/
theorem Bound.step (h : c.Bound) (s : ClientStep) : (c.step s).Bound := by
  cases s with
  | input input =>
    rw [WebClient.step]
    split_ifs
    · exact h.onInput input
    · exact h
  | message message => exact h.handleCallProtocolMessage message

theorem bound_loggedIn (username : Bytes) : (loggedIn username).Bound :=
  (ok_loggedIn username).toTidy.bound rfl

/-! ### Steps for another call -/

variable {awaited : AwaitedPromise} {description : ObjectText}

/-- The function ends in an error, for which whatever call there is is ended. -/
def EndsCall (c c' : WebClient) : Prop :=
  ∃ c₀ : WebClient, c' = c₀.handleLocalCallFailure ∧ c₀.call = c.call ∧ c₀.sent = c.sent

/-- Neither messages nor the phase of the call. -/
def Leaves (c c' : WebClient) : Prop := c'.sent = c.sent ∧ c'.call.phase = c.call.phase

theorem endsCall_awaitPeerConnection {c₀ : WebClient} (hpeer : (c₀.webrtcs w).peerConnection = none)
    (hcall : c₀.call = c.call) (hsent : c₀.sent = c.sent) :
    EndsCall c (c₀.awaitPeerConnection w callId awaited) := ⟨c₀, if_pos hpeer, hcall, hsent⟩

theorem endsCall_onRejected (hfails : awaited.Fails .rejected) : EndsCall c (c.onRejected w callId awaited) := by
  cases awaited with
  | getUserMedia next =>
    cases next with
    | acceptIncomingCall => exact absurd hfails id
    | startAsCaller => exact ⟨c.close w, rfl, rfl, rfl⟩
    | receiveOffer => exact ⟨c.close w, rfl, rfl, rfl⟩
  | _ => exact ⟨c, rfl, rfl, rfl⟩

theorem leaves_mediaFailed (hother : c.call.callId ≠ callId) :
    Leaves c ((c.close w).mediaFailed callId .acceptIncomingCall) := by
  have hnot : ¬ ((c.close w).call.phase = .incoming ∧ (c.close w).call.callId = callId) := fun h => hother h.2
  rw [mediaFailed, if_neg hnot]
  exact ⟨rfl, rfl⟩

theorem leaves_onRejected (hother : c.call.callId ≠ callId) (hfails : ¬ awaited.Fails .rejected) :
    Leaves c (c.onRejected w callId awaited) := by
  cases awaited with
  | getUserMedia next =>
    cases next with
    | acceptIncomingCall => exact leaves_mediaFailed hother
    | startAsCaller => exact absurd trivial hfails
    | receiveOffer => exact absurd trivial hfails
  | _ => exact absurd trivial hfails

/-- Of a closed `WebRtcCall` there is no description to set, and nothing to flush. -/
theorem remoteDescriptionSet_of_closed (hclosed : c.webrtcs w = .closed) (callId : Bytes) (next : FlushNext) :
    ∃ c₀ : WebClient, c.remoteDescriptionSet w callId next = c₀.flushed w callId next ∧ c₀.call = c.call ∧
      c₀.sent = c.sent ∧ (c₀.webrtcs w).peerConnection = none := by
  have hpeer : ((c.withWebRtc w { c.webrtcs w with
      peerConnection := (c.webrtcs w).peerConnection.map fun _ => ⟨true⟩ }).webrtcs w).peerConnection = none := by
    show (Function.update c.webrtcs w _ w).peerConnection = none
    rw [Function.update_self, hclosed]
    rfl
  refine ⟨c.withWebRtc w { c.webrtcs w with
    peerConnection := (c.webrtcs w).peerConnection.map fun _ => ⟨true⟩ }, ?_, rfl, rfl, hpeer⟩
  show (c.withWebRtc w _).flushPendingIceCandidates w callId next = _
  rw [flushPendingIceCandidates, hpeer]

theorem endsCall_onResolved (hclosed : c.webrtcs w = .closed) (hfails : awaited.Fails (.resolved description)) :
    EndsCall c (c.onResolved w callId description awaited) := by
  have hpeer : (c.webrtcs w).peerConnection = none := congrArg WebRtcCall.peerConnection hclosed
  cases awaited with
  | getUserMedia next =>
    have hclosing : (c.webrtcs w).closing = true := congrArg WebRtcCall.closing hclosed
    rw [onResolved, gotUserMedia, if_pos hclosing]
    cases next with
    | acceptIncomingCall => exact absurd hfails id
    | startAsCaller => exact ⟨c.close w, rfl, rfl, rfl⟩
    | receiveOffer => exact ⟨c.close w, rfl, rfl, rfl⟩
  | createOffer => exact endsCall_awaitPeerConnection hpeer rfl rfl
  | setLocalOffer => exact ⟨c, if_pos hpeer, rfl, rfl⟩
  | setRemoteOffer =>
    obtain ⟨c₀, hset, hcall, hsent, hpeer⟩ := remoteDescriptionSet_of_closed hclosed callId .receiveOffer
    rw [onResolved, hset]
    exact endsCall_awaitPeerConnection hpeer hcall hsent
  | flushCandidate rest next =>
    cases rest with
    | zero =>
      cases next with
      | receiveOffer => exact endsCall_awaitPeerConnection hpeer rfl rfl
      | receiveAnswer => exact absurd hfails id
    | succ rest => exact endsCall_awaitPeerConnection hpeer rfl rfl
  | createAnswer => exact endsCall_awaitPeerConnection hpeer rfl rfl
  | setLocalAnswer => exact ⟨c, if_pos hpeer, rfl, rfl⟩
  | setRemoteAnswer => exact absurd hfails id
  | addIceCandidate => exact absurd hfails id

theorem leaves_onResolved (hclosed : c.webrtcs w = .closed) (hother : c.call.callId ≠ callId)
    (hfails : ¬ awaited.Fails (.resolved description)) : Leaves c (c.onResolved w callId description awaited) := by
  cases awaited with
  | getUserMedia next =>
    cases next with
    | acceptIncomingCall =>
      have hclosing : (c.webrtcs w).closing = true := congrArg WebRtcCall.closing hclosed
      rw [onResolved, gotUserMedia, if_pos hclosing]
      exact leaves_mediaFailed hother
    | startAsCaller => exact absurd trivial hfails
    | receiveOffer => exact absurd trivial hfails
  | setRemoteAnswer =>
    obtain ⟨c₀, hset, hcall, hsent, -⟩ := remoteDescriptionSet_of_closed hclosed callId .receiveAnswer
    rw [onResolved, hset]
    exact ⟨hsent, congrArg ClientCall.phase hcall⟩
  | flushCandidate rest next =>
    cases rest with
    | zero =>
      cases next with
      | receiveOffer => exact absurd trivial hfails
      | receiveAnswer => exact ⟨rfl, rfl⟩
    | succ rest => exact absurd trivial hfails
  | addIceCandidate => exact ⟨rfl, rfl⟩
  | _ => exact absurd trivial hfails

/-- **A failure** ends whatever call there is. -/
theorem EndsCall.finished {c' : WebClient} (h : EndsCall c c') (hcurrent : c.hasCurrentCall = true) :
    c'.call.phase = .finished := by
  obtain ⟨c₀, rfl, hcall, -⟩ := h
  have hcurrent' : ¬ c₀.hasCurrentCall = false := by
    rw [hasCurrentCall, hcall, ← hasCurrentCall, hcurrent]
    decide
  rw [handleLocalCallFailure, if_neg hcurrent']
  rfl

theorem EndsCall.leaves {c' : WebClient} (h : EndsCall c c') (hnone : c.hasCurrentCall = false) : Leaves c c' := by
  obtain ⟨c₀, rfl, hcall, hsent⟩ := h
  have hnone' : c₀.hasCurrentCall = false := by rw [hasCurrentCall, hcall, ← hasCurrentCall, hnone]
  rw [handleLocalCallFailure, if_pos hnone']
  exact ⟨hsent, congrArg ClientCall.phase hcall⟩

/-- What is settled for another call ends in an error, or leaves everything as it is. -/
theorem settle_of_other (h : c.Bound) {index : ℕ} {task : Task} (htask : c.tasks[index]? = some task)
    (hother : c.call.callId ≠ task.callId) (settled : Settled) :
    (task.awaited.Fails settled → EndsCall c (c.settle index settled)) ∧
      (¬ task.awaited.Fails settled → Leaves c (c.settle index settled)) := by
  have hclosed : c.webrtcs task.webrtc = .closed :=
    h.closed _ fun hw => hother (h.named_tasks task (List.mem_of_getElem? htask) hw).symm
  rw [settle, htask]
  -- neither says anything of the tasks that are left
  let rest : WebClient := { c with tasks := c.tasks.eraseIdx index }
  cases settled with
  | rejected => exact ⟨@endsCall_onRejected rest _ _ _, @leaves_onRejected rest _ _ _ hother⟩
  | resolved description =>
    exact ⟨@endsCall_onResolved rest _ _ _ _ hclosed, @leaves_onResolved rest _ _ _ _ hclosed hother⟩

/-- **When a step is confined.** -/
theorem settle_confined_iff (h : c.Bound) (index : ℕ) (settled : Settled) :
    c.Confined index settled ↔ c.Settles index settled := by
  refine forall₂_congr fun task htask => ?_
  have htask : c.tasks[index]? = some task := htask
  by_cases hsame : c.call.callId = task.callId
  · refine iff_of_true ⟨?_, fun hother => absurd hsame hother⟩ fun _ _ => hsame
    obtain ⟨-, messages, hsent, hmessages⟩ := (updates_settle h htask settled).sends
    intro m hm
    rw [hsent] at hm
    rw [show (c.sent ++ messages).drop c.sent.length = messages from List.drop_left] at hm
    exact (hmessages m hm).trans hsame
  · obtain ⟨hends, hleaves⟩ := settle_of_other h htask hsame settled
    have hquiet : Leaves c (c.settle index settled) →
        (∀ message ∈ (c.settle index settled).sent.drop c.sent.length, message.callId = task.callId) ∧
          (c.call.callId ≠ task.callId → (c.settle index settled).call.phase = c.call.phase) := by
      rintro ⟨hsent, hphase⟩
      rw [hsent, List.drop_length]
      exact ⟨fun m hm => absurd hm List.not_mem_nil, fun _ => hphase⟩
    by_cases hfails : task.awaited.Fails settled
    · constructor
      · rintro ⟨-, hphase⟩ hcurrent
        have hfinished : c.call.phase = .finished :=
          (hphase hsame).symm.trans ((hends hfails).finished hcurrent)
        have hactive : c.slot.view ≠ .inactive := hasCurrentCall_iff.mp hcurrent
        exact absurd (congrArg CallPhase.view hfinished) hactive
      · intro hsettles
        refine hquiet ((hends hfails).leaves ?_)
        exact Bool.eq_false_iff.mpr fun hcurrent => hsame (hsettles hcurrent hfails)
    · exact iff_of_true (hquiet (hleaves hfails)) fun _ hfails' => absurd hfails' hfails

theorem whereSettled_congr {P Q : WebClient → ℕ → Settled → Prop}
    (hPQ : ∀ c : WebClient, c.Bound → ∀ index settled, P c index settled ↔ Q c index settled)
    (steps : List ClientStep) (h : c.Bound) : WhereSettled P c steps ↔ WhereSettled Q c steps := by
  induction steps generalizing c with
  | nil => exact Iff.rfl
  | cons s steps ih =>
    refine and_congr ?_ (ih (h.step s))
    exact forall₃_congr fun index settled _ => hPQ c h index settled

/-- **Confined runs.**  In every run of a client that has logged in, the steps that settle promises are confined
exactly if each of them meets `Settles`. -/
theorem settlements_confined_iff (username : Bytes) (steps : List ClientStep) :
    WhereSettled Confined (loggedIn username) steps ↔ WhereSettled Settles (loggedIn username) steps :=
  whereSettled_congr (fun _ h => settle_confined_iff h) steps (bound_loggedIn username)

/-- Bob has accepted a call and hung up before the caller has granted access to the camera; she calls Carol and
then grants it.  This cancels the call to Carol. -/
theorem late_media_cancel_another_call :
    ¬ ∀ (username : Bytes) (steps : List ClientStep), WhereSettled Confined (loggedIn username) steps := by
  intro h
  have hrun := h (ascii "alice")
    [.input (.startVideoCall (ascii "bob") (ascii "1")),
      .message ⟨.event .accept, ascii "bob", ascii "1", []⟩,
      .message ⟨.event .hangup, ascii "bob", ascii "1", []⟩,
      .input (.startVideoCall (ascii "carol") (ascii "2")),
      .input (.settle 0 (.resolved ⟨ascii "\x7b\x7d", rfl⟩))]
  exact absurd (hrun.2.2.2.2.1 _ _ rfl) (by decide)

end

end WebClient

end ChatService
