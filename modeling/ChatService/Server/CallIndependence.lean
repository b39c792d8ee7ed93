import ChatService.Foundation.Footprints
import ChatService.Server.CallConsistency

/-!
# Independent operations of `CallManager`

The footprint of an operation is what it names, closed under the current calls.  Every operation reads and
writes within it: also `removeUser`, which finds the id and the peer in the entry of the user
(`CallOperation.isLocal`).  So operations of different pairs can be done in either order.
-/

namespace ChatService

open Footprints

/-! ### Footprints -/

/-- The users that the operation names. -/
def CallOperation.users : CallOperation → List Bytes
  | startCall caller callee _ => [caller, callee]
  | acceptCall callee caller _ => [callee, caller]
  | rejectCall callee caller _ => [callee, caller]
  | cancelCall caller callee _ => [caller, callee]
  | timeoutCall caller callee _ => [caller, callee]
  | hangupCall username peer _ => [username, peer]
  | validateSignaling username peer _ _ => [username, peer]
  | removeUser username => [username]

/-- The call id that the operation names. -/
def CallOperation.callIds : CallOperation → List Bytes
  | startCall _ _ callId => [callId]
  | acceptCall _ _ callId => [callId]
  | rejectCall _ _ callId => [callId]
  | cancelCall _ _ callId => [callId]
  | timeoutCall _ _ callId => [callId]
  | hangupCall _ _ callId => [callId]
  | validateSignaling _ _ callId _ => [callId]
  | removeUser _ => []

/-- What the operation returns; `removeUser` returns its event. -/
def CallOperation.outcome (m : CallManager) : CallOperation → Option Bytes ⊕ Option CallDisconnectEvent
  | startCall caller callee callId => .inl (m.startCall caller callee callId).1
  | acceptCall callee caller callId => .inl (m.acceptCall callee caller callId).1
  | rejectCall callee caller callId => .inl (m.rejectCall callee caller callId).1
  | cancelCall caller callee callId => .inl (m.cancelCall caller callee callId).1
  | timeoutCall caller callee callId => .inl (m.timeoutCall caller callee callId).1
  | hangupCall username peer callId => .inl (m.hangupCall username peer callId).1
  | validateSignaling username peer callId type => .inl (m.validateSignaling username peer callId type)
  | removeUser username => .inr (m.removeUser username).1

structure CallFootprint where
  users : List Bytes
  callIds : List Bytes

/-- The users are different, and so are the ids. -/
def CallFootprint.Apart (F G : CallFootprint) : Prop := F.users.Disjoint G.users ∧ F.callIds.Disjoint G.callIds

instance (F G : CallFootprint) : Decidable (F.Apart G) :=
  inferInstanceAs (Decidable ((∀ u ∈ F.users, u ∉ G.users) ∧ ∀ id ∈ F.callIds, id ∉ G.callIds))

/-- The calls that a named user takes part in, or that have the named id. -/
def CallManager.touched (m : CallManager) (op : CallOperation) : List (Bytes × CallRecord) :=
  m.calls.toList.filter fun (id, call) => id ∈ op.callIds ∨ call.caller ∈ op.users ∨ call.callee ∈ op.users

/-- What the operation names, with the participants and the ids of these calls. -/
def CallManager.footprint (m : CallManager) (op : CallOperation) : CallFootprint where
  users := op.users ++ (m.touched op).flatMap fun (_, call) => [call.caller, call.callee]
  callIds := op.callIds ++ (m.touched op).map Prod.fst

/-! ### Users are in calls -/

namespace CallManager

variable {m : CallManager}

theorem startCall_snd (m : CallManager) (a b id : Bytes) :
    (m.startCall a b id).2 = if (m.startCall a b id).1 = none then m.withCall a b id else m := by
  rw [startCall_eq]
  split_ifs <;> first | rfl | contradiction

/-- What is accepted is the pending call. -/
theorem acceptCall_snd (m : CallManager) (b a id : Bytes) :
    (m.acceptCall b a id).2 = if (m.acceptCall b a id).1 = none then m.withAccepted a b id else m := by
  rw [acceptCall]
  split
  · next calleeIt callerIt callIt hb ha hid =>
    split_ifs with hguard
    · contradiction
    · rfl
    · simp only [not_or, not_not, Bool.not_eq_true] at hguard
      obtain ⟨-, -, hcalleeId, hcallerId, hcalleePeer, hcallerPeer, hcaller, hcallee, -⟩ := hguard
      simp only [withAccepted, hcalleeId, hcallerId, hcalleePeer, hcallerPeer, hcaller, hcallee]
    · contradiction
  · rfl

theorem acceptCall_eq_none {a b id : Bytes} (h : (m.acceptCall b a id).1 = none) :
    m.calls[id]? = some ⟨a, b, false⟩ := by
  rw [acceptCall] at h
  split at h
  · next calleeIt callerIt callIt hb ha hid =>
    split_ifs at h with hguard
    simp only [not_or, not_not, Bool.not_eq_true] at hguard
    obtain ⟨-, -, -, -, -, -, hcaller, hcallee, hpending⟩ := hguard
    rw [hid, ← hcaller, ← hcallee, ← hpending]
  · exact absurd h (Option.some_ne_none _)

theorem finishPendingCall_snd (m : CallManager) (username peer callId : Bytes) (expectedState : CallUserState)
    (expectCaller : Bool) : (m.finishPendingCall username peer callId expectedState expectCaller).2 =
      if (m.finishPendingCall username peer callId expectedState expectCaller).1 = none then m.eraseCallLocked callId
      else m := by
  rw [finishPendingCall]
  split
  · split_ifs <;> first | rfl | contradiction
  · rfl

theorem hangupCall_snd (m : CallManager) (username peer callId : Bytes) :
    (m.hangupCall username peer callId).2 =
      if (m.hangupCall username peer callId).1 = none then m.eraseCallLocked callId else m := by
  rw [hangupCall]
  split <;> rfl

theorem Registered.eraseCallLocked (h : Registered m) (id : Bytes) : Registered (m.eraseCallLocked id) := by
  cases hid : m.calls[id]? with
  | none =>
    have hsame : m.eraseCallLocked id = m := by rw [CallManager.eraseCallLocked, hid]
    rw [hsame]
    exact h
  | some erased =>
    rw [eraseCallLocked_eq hid]
    exact h.without hid

/-- An operation that succeeds with a change, or fails. -/
theorem Registered.of_ite (h : Registered m) {p : Prop} [Decidable p] {m' : CallManager} (h' : p → Registered m') :
    Registered (if p then m' else m) := by
  split_ifs with hp
  · exact h' hp
  · exact h

/-- **Every operation keeps it.** -/
theorem Registered.apply (h : Registered m) (op : CallOperation) : Registered (op.apply m) := by
  cases op with
  | startCall a b id =>
    show Registered (m.startCall a b id).2
    rw [startCall_snd]
    exact h.of_ite fun hnone => h.withCall (startCall_eq_none hnone).1
  | acceptCall b a id =>
    show Registered (m.acceptCall b a id).2
    rw [acceptCall_snd]
    exact h.of_ite fun hnone => h.withAccepted (acceptCall_eq_none hnone)
  | rejectCall b a id =>
    show Registered (m.finishPendingCall ..).2
    rw [finishPendingCall_snd]
    exact h.of_ite fun _ => h.eraseCallLocked id
  | cancelCall a b id =>
    show Registered (m.finishPendingCall ..).2
    rw [finishPendingCall_snd]
    exact h.of_ite fun _ => h.eraseCallLocked id
  | timeoutCall a b id =>
    show Registered (m.finishPendingCall ..).2
    rw [finishPendingCall_snd]
    exact h.of_ite fun _ => h.eraseCallLocked id
  | hangupCall x y id =>
    show Registered (m.hangupCall x y id).2
    rw [hangupCall_snd]
    exact h.of_ite fun _ => h.eraseCallLocked id
  | validateSignaling x y id type => exact h
  | removeUser u =>
    show Registered (m.removeUser u).2
    rw [removeUser]
    split
    · exact h
    · exact h.eraseCallLocked _

theorem registered_applyAll (ops : List CallOperation) : Registered (empty.applyAll ops) := by
  have hrun : ∀ m : CallManager, Registered m → Registered (m.applyAll ops) := by
    induction ops with
    | nil => exact fun _ h => h
    | cons op ops ih => exact fun m h => ih _ (h.apply op)
  exact hrun empty registered_empty

/-! ### Locality -/

/-- The entry of a user, or the call of an id. -/
def look (m : CallManager) : Bytes ⊕ Bytes → Option UserCall ⊕ Option CallRecord
  | .inl u => .inl m.users[u]?
  | .inr id => .inr m.calls[id]?

theorem look_injective : Function.Injective look := by
  intro m m' h
  have husers : m.users = m'.users :=
    Std.ExtTreeMap.ext_getElem? fun u => Sum.inl.inj (congrFun h (.inl u))
  have hcalls : m.calls = m'.calls :=
    Std.ExtTreeMap.ext_getElem? fun id => Sum.inr.inj (congrFun h (.inr id))
  cases m
  cases m'
  exact congrArg₂ CallManager.mk husers hcalls

variable {F : Set (Bytes ⊕ Bytes)} {m' : CallManager}

theorem users_of_agree (h : Agree look F m m') {u : Bytes} (hu : .inl u ∈ F) : m'.users[u]? = m.users[u]? :=
  (Sum.inl.inj (h _ hu)).symm

theorem calls_of_agree (h : Agree look F m m') {id : Bytes} (hid : .inr id ∈ F) : m'.calls[id]? = m.calls[id]? :=
  (Sum.inr.inj (h _ hid)).symm

theorem writes_insertUser {u : Bytes} (entry : UserCall) (hu : .inl u ∈ F) :
    Writes look F fun m => { m with users := m.users.insert u entry } := by
  refine .of_key hu (fun m m' => ?_) fun m k hk => ?_
  · show Sum.inl _ = Sum.inl _
    rw [Tables.getElem?_insert_self, Tables.getElem?_insert_self]
  · cases k with
    | inl u' => exact congrArg Sum.inl (Tables.getElem?_insert_of_ne fun heq => hk (congrArg Sum.inl heq.symm))
    | inr id => rfl

theorem writes_eraseUser {u : Bytes} (hu : .inl u ∈ F) :
    Writes look F fun m => { m with users := m.users.erase u } := by
  refine .of_key hu (fun m m' => ?_) fun m k hk => ?_
  · show Sum.inl _ = Sum.inl _
    rw [Tables.getElem?_erase_self, Tables.getElem?_erase_self]
  · cases k with
    | inl u' => exact congrArg Sum.inl (Tables.getElem?_erase_of_ne fun heq => hk (congrArg Sum.inl heq.symm))
    | inr id => rfl

theorem writes_insertCall {id : Bytes} (call : CallRecord) (hid : .inr id ∈ F) :
    Writes look F fun m => { m with calls := m.calls.insert id call } := by
  refine .of_key hid (fun m m' => ?_) fun m k hk => ?_
  · show Sum.inr _ = Sum.inr _
    rw [Tables.getElem?_insert_self, Tables.getElem?_insert_self]
  · cases k with
    | inl u => rfl
    | inr id' => exact congrArg Sum.inr (Tables.getElem?_insert_of_ne fun heq => hk (congrArg Sum.inr heq.symm))

theorem writes_eraseCall {id : Bytes} (hid : .inr id ∈ F) :
    Writes look F fun m => { m with calls := m.calls.erase id } := by
  refine .of_key hid (fun m m' => ?_) fun m k hk => ?_
  · show Sum.inr _ = Sum.inr _
    rw [Tables.getElem?_erase_self, Tables.getElem?_erase_self]
  · cases k with
    | inl u => rfl
    | inr id' => exact congrArg Sum.inr (Tables.getElem?_erase_of_ne fun heq => hk (congrArg Sum.inr heq.symm))

theorem writes_withCall {a b id : Bytes} (ha : .inl a ∈ F) (hb : .inl b ∈ F) (hid : .inr id ∈ F) :
    Writes look F fun m => m.withCall a b id :=
  ((writes_insertUser _ ha).comp (writes_insertUser _ hb)).comp (writes_insertCall _ hid)

theorem writes_withAccepted {a b id : Bytes} (ha : .inl a ∈ F) (hb : .inl b ∈ F) (hid : .inr id ∈ F) :
    Writes look F fun m => m.withAccepted a b id :=
  ((writes_insertUser _ hb).comp (writes_insertUser _ ha)).comp (writes_insertCall _ hid)

theorem writes_without {id : Bytes} {call : CallRecord} (hcaller : .inl call.caller ∈ F)
    (hcallee : .inl call.callee ∈ F) (hid : .inr id ∈ F) : Writes look F fun m => m.without id call :=
  ((writes_eraseUser hcaller).comp (writes_eraseUser hcallee)).comp (writes_eraseCall hid)

/-- `F` has the participants of the call of this id. -/
def Closed (m : CallManager) (F : Set (Bytes ⊕ Bytes)) (id : Bytes) : Prop :=
  .inr id ∈ F ∧ ∀ call : CallRecord, m.calls[id]? = some call → .inl call.caller ∈ F ∧ .inl call.callee ∈ F

/-- What `eraseCallLocked` writes is found in the call. -/
theorem writes_eraseCallLocked {id : Bytes} (h : Closed m F id) :
    ∃ write, Writes look F write ∧ ∀ m', Agree look F m m' → m'.eraseCallLocked id = write m' := by
  obtain ⟨hid, hparticipants⟩ := h
  cases hcall : m.calls[id]? with
  | none =>
    refine ⟨_, .id, fun m' hagree => ?_⟩
    rw [eraseCallLocked, calls_of_agree hagree hid, hcall]
    rfl
  | some call =>
    obtain ⟨hcaller, hcallee⟩ := hparticipants call hcall
    refine ⟨_, writes_without hcaller hcallee hid, fun m' hagree => ?_⟩
    exact eraseCallLocked_eq ((calls_of_agree hagree hid).trans hcall)

/-- An operation that erases a call, or gives a reason. -/
theorem local_of_erase {id : Bytes} {op : CallManager → Option Bytes × CallManager} (h : Closed m F id)
    (hreason : ∀ m', Agree look F m m' → (op m').1 = (op m).1)
    (hstate : ∀ m', (op m').2 = if (op m').1 = none then m'.eraseCallLocked id else m') : Local look F op m := by
  obtain ⟨write, hwrite, herase⟩ := writes_eraseCallLocked h
  refine .of_reason hwrite hreason fun m' hagree => ?_
  rw [hstate, herase m' hagree]

theorem local_finishPendingCall {username peer callId : Bytes} {expectedState : CallUserState} {expectCaller : Bool}
    (husername : .inl username ∈ F) (hpeer : .inl peer ∈ F) (h : Closed m F callId) :
    Local look F (fun m => m.finishPendingCall username peer callId expectedState expectCaller) m := by
  refine local_of_erase h (fun m' hagree => ?_) fun m' => finishPendingCall_snd ..
  show (m'.finishPendingCall ..).1 = (m.finishPendingCall ..).1
  rw [finishPendingCall, finishPendingCall, users_of_agree hagree husername, users_of_agree hagree hpeer,
    calls_of_agree hagree h.1]
  split
  · split_ifs <;> rfl
  · rfl

/-- The guard of `hangupCall` and `validateSignaling` reads the entries of the two users, and the call. -/
theorem inSameActiveCall_of_agree {username peer callId : Bytes} (husername : .inl username ∈ F)
    (hpeer : .inl peer ∈ F) (hcallId : .inr callId ∈ F) (hagree : Agree look F m m') :
    m'.inSameActiveCall username peer callId = m.inSameActiveCall username peer callId := by
  rw [inSameActiveCall, inSameActiveCall, users_of_agree hagree husername, users_of_agree hagree hpeer,
    calls_of_agree hagree hcallId]

theorem local_hangupCall {username peer callId : Bytes} (husername : .inl username ∈ F) (hpeer : .inl peer ∈ F)
    (h : Closed m F callId) : Local look F (fun m => m.hangupCall username peer callId) m := by
  refine local_of_erase h (fun m' hagree => ?_) fun m' => hangupCall_snd ..
  show (m'.hangupCall ..).1 = (m.hangupCall ..).1
  rw [hangupCall, hangupCall, inSameActiveCall_of_agree husername hpeer h.1 hagree]
  split <;> rfl

theorem local_startCall {a b id : Bytes} (ha : .inl a ∈ F) (hb : .inl b ∈ F) (hid : .inr id ∈ F) :
    Local look F (fun m => m.startCall a b id) m := by
  refine .of_reason (writes_withCall ha hb hid) (fun m' hagree => ?_) fun m' _ => startCall_snd ..
  show (m'.startCall a b id).1 = (m.startCall a b id).1
  rw [startCall, startCall, users_of_agree hagree ha, users_of_agree hagree hb, calls_of_agree hagree hid]
  split_ifs <;> rfl

theorem local_acceptCall {b a id : Bytes} (hb : .inl b ∈ F) (ha : .inl a ∈ F) (hid : .inr id ∈ F) :
    Local look F (fun m => m.acceptCall b a id) m := by
  refine .of_reason (writes_withAccepted ha hb hid) (fun m' hagree => ?_) fun m' _ => acceptCall_snd ..
  show (m'.acceptCall b a id).1 = (m.acceptCall b a id).1
  rw [acceptCall, acceptCall, users_of_agree hagree hb, users_of_agree hagree ha, calls_of_agree hagree hid]
  split
  · split_ifs <;> rfl
  · rfl

theorem local_validateSignaling {username peer callId type : Bytes} (husername : .inl username ∈ F)
    (hpeer : .inl peer ∈ F) (hcallId : .inr callId ∈ F) :
    Local look F (fun m => (m.validateSignaling username peer callId type, m)) m := by
  refine .of_read fun m' hagree => ?_
  rw [validateSignaling, validateSignaling, inSameActiveCall_of_agree husername hpeer hcallId hagree]

/-- `removeUser` names neither the peer nor the id: the entry of the user does, and the footprint has them. -/
theorem local_removeUser {username : Bytes} (husername : .inl username ∈ F)
    (h : ∀ entry : UserCall, m.users[username]? = some entry → Closed m F entry.callId) :
    Local look F (fun m => m.removeUser username) m := by
  cases huser : m.users[username]? with
  | none =>
    refine ⟨none, id, .id, fun m' hagree => ?_⟩
    show m'.removeUser username = (none, m')
    rw [removeUser, users_of_agree hagree husername, huser]
  | some entry =>
    obtain ⟨write, hwrite, herase⟩ := writes_eraseCallLocked (h entry huser)
    refine ⟨some ⟨entry.callId, entry.peer, entry.state⟩, write, hwrite, fun m' hagree => ?_⟩
    show m'.removeUser username = _
    rw [removeUser, users_of_agree hagree husername, huser, ← herase m' hagree]

end CallManager

/-! ### Independence -/

/-- The users and the ids, as keys. -/
def CallFootprint.keys (F : CallFootprint) : Set (Bytes ⊕ Bytes) := {k | k.elim (· ∈ F.users) (· ∈ F.callIds)}

theorem CallFootprint.Apart.disjoint {F G : CallFootprint} (h : F.Apart G) : Disjoint F.keys G.keys := by
  rw [Set.disjoint_left]
  intro k hF hG
  cases k with
  | inl u => exact h.1 hF hG
  | inr id => exact h.2 hF hG

namespace CallManager

variable {m : CallManager} {op : CallOperation}

theorem mem_touched {id : Bytes} {call : CallRecord} : (id, call) ∈ m.touched op ↔ m.calls[id]? = some call ∧
    (id ∈ op.callIds ∨ call.caller ∈ op.users ∨ call.callee ∈ op.users) := by
  rw [touched, List.mem_filter, Std.ExtTreeMap.mem_toList_iff_getElem?_eq_some, decide_eq_true_iff]

theorem named_user {u : Bytes} (hu : u ∈ op.users) : .inl u ∈ (m.footprint op).keys := List.mem_append_left _ hu

theorem named_callId {id : Bytes} (hid : id ∈ op.callIds) : .inr id ∈ (m.footprint op).keys :=
  List.mem_append_left _ hid

theorem closed_of_touched {id : Bytes} {call : CallRecord} (h : (id, call) ∈ m.touched op) :
    Closed m (m.footprint op).keys id := by
  refine ⟨List.mem_append_right _ (List.mem_map.mpr ⟨_, h, rfl⟩), fun call' hcall' => ?_⟩
  obtain rfl := Option.some.inj ((mem_touched.mp h).1.symm.trans hcall')
  have hmem : ∀ u ∈ [call.caller, call.callee], .inl u ∈ (m.footprint op).keys := fun u hu =>
    List.mem_append_right _ (List.mem_flatMap.mpr ⟨_, h, hu⟩)
  exact ⟨hmem _ List.mem_cons_self, hmem _ (List.mem_cons_of_mem _ List.mem_cons_self)⟩

theorem closed_of_named {id : Bytes} (hid : id ∈ op.callIds) : Closed m (m.footprint op).keys id :=
  ⟨named_callId hid, fun _ hcall => (closed_of_touched (mem_touched.mpr ⟨hcall, .inl hid⟩)).2 _ hcall⟩

theorem named_first {u v : Bytes} (h : op.users = [u, v]) : .inl u ∈ (m.footprint op).keys :=
  named_user (h ▸ List.mem_cons_self)

theorem named_second {u v : Bytes} (h : op.users = [u, v]) : .inl v ∈ (m.footprint op).keys :=
  named_user (h ▸ List.mem_cons_of_mem _ List.mem_cons_self)

/-- **Every operation stays within its footprint.** -/
theorem Registered.isLocal (h : Registered m) (op : CallOperation) :
    Local look (m.footprint op).keys (fun m => (op.outcome m, op.apply m)) m := by
  cases op with
  | startCall a b id =>
    exact (local_startCall (named_first rfl) (named_second rfl) (named_callId List.mem_cons_self)).map Sum.inl
  | acceptCall b a id =>
    exact (local_acceptCall (named_first rfl) (named_second rfl) (named_callId List.mem_cons_self)).map Sum.inl
  | rejectCall b a id =>
    exact (local_finishPendingCall (named_first rfl) (named_second rfl)
      (closed_of_named List.mem_cons_self)).map Sum.inl
  | cancelCall a b id =>
    exact (local_finishPendingCall (named_first rfl) (named_second rfl)
      (closed_of_named List.mem_cons_self)).map Sum.inl
  | timeoutCall a b id =>
    exact (local_finishPendingCall (named_first rfl) (named_second rfl)
      (closed_of_named List.mem_cons_self)).map Sum.inl
  | hangupCall x y id =>
    exact (local_hangupCall (named_first rfl) (named_second rfl) (closed_of_named List.mem_cons_self)).map Sum.inl
  | validateSignaling x y id type =>
    exact (local_validateSignaling (named_first rfl) (named_second rfl)
      (named_callId List.mem_cons_self)).map Sum.inl
  | removeUser u =>
    have hu : u ∈ (CallOperation.removeUser u).users := List.mem_cons_self
    refine (local_removeUser (named_user hu) fun entry hentry => ?_).map Sum.inr
    obtain ⟨call, hcall, hside⟩ := h u entry hentry
    refine closed_of_touched (mem_touched.mpr ⟨hcall, .inr ?_⟩)
    rcases hside with rfl | rfl
    · exact .inl hu
    · exact .inr hu

/-- **Operations with disjoint footprints are independent**: in every state that a run of operations leads to,
they can be done in either order, with the same maps at the end and the same results. -/
theorem operations_independent (ops : List CallOperation) (op op' : CallOperation) :
    let m := empty.applyAll ops
    (m.footprint op).Apart (m.footprint op') →
      op'.apply (op.apply m) = op.apply (op'.apply m) ∧
      op.outcome (op'.apply m) = op.outcome m ∧ op'.outcome (op.apply m) = op'.outcome m := by
  intro m hapart
  have hregistered : Registered m := registered_applyAll ops
  exact (hregistered.isLocal op).commute look_injective (hregistered.isLocal op') hapart.disjoint

/-- With two calls under way, a user of one leaves and the other call is ended. -/
theorem operations_independent_two_pairs :
    let m := empty.applyAll
      [.startCall (ascii "Alice") (ascii "Bob") (ascii "c1"), .startCall (ascii "Charlie") (ascii "David") (ascii "c2"),
        .acceptCall (ascii "David") (ascii "Charlie") (ascii "c2")]
    let op := CallOperation.removeUser (ascii "Bob")
    let op' := CallOperation.hangupCall (ascii "Charlie") (ascii "David") (ascii "c2")
    op'.apply (op.apply m) = op.apply (op'.apply m) ∧
      op.outcome (op'.apply m) = op.outcome m ∧ op'.outcome (op.apply m) = op'.outcome m :=
  operations_independent _ _ _ (by decide +kernel)

end CallManager

end ChatService
