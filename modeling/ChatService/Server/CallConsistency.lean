import ChatService.Server.CallManager

/-!
# The two maps of `CallManager` agree

`Consistent m` says that the user map is exactly what the call map dictates: both participants of a
call, and nobody else, have an entry, with the state, the id and the peer that the call gives them.

* `startCall_eq`, `acceptCall_eq`, … — under it, each operation is decided by the call map alone: the
  long guards of the source come down to one lookup.
* `Consistent.apply` — every operation keeps it, and `consistent_applyAll` is the same for runs.
-/

namespace ChatService

/-- The entry a call gives to its caller. -/
def CallRecord.callerEntry (call : CallRecord) (callId : Bytes) : UserCall :=
  ⟨if call.accepted then .inCall else .calling, callId, call.callee⟩

/-- The entry a call gives to its callee. -/
def CallRecord.calleeEntry (call : CallRecord) (callId : Bytes) : UserCall :=
  ⟨if call.accepted then .inCall else .ringing, callId, call.caller⟩

/-- The participants of a call are `x` and `y`. -/
def CallRecord.between (call : CallRecord) (x y : Bytes) : Prop :=
  (call.caller = x ∧ call.callee = y) ∨ (call.caller = y ∧ call.callee = x)

theorem CallRecord.between.right_mem {call : CallRecord} {x y : Bytes} (h : call.between x y) :
    y = call.caller ∨ y = call.callee := (h.imp (fun h => h.2.symm) fun h => h.1.symm).symm

/-- The other one of the caller is the callee, … -/
theorem CallRecord.between.eq_callee {call : CallRecord} {y : Bytes}
    (h : call.between call.caller y) : y = call.callee := by
  rcases h with ⟨-, h⟩ | ⟨hcaller, hcallee⟩
  · exact h.symm
  · exact hcaller.symm.trans hcallee.symm

/-- … and the other way round. -/
theorem CallRecord.between.eq_caller {call : CallRecord} {y : Bytes}
    (h : call.between call.callee y) : y = call.caller := by
  rcases h with ⟨hcaller, hcallee⟩ | ⟨h, -⟩
  · exact hcallee.symm.trans hcaller.symm
  · exact h.symm

instance (call : CallRecord) (x y : Bytes) : Decidable (call.between x y) :=
  inferInstanceAs (Decidable (_ ∨ _))

namespace CallManager

variable {m : CallManager}

/-- The manager with a new call. -/
def withCall (m : CallManager) (caller callee callId : Bytes) : CallManager :=
  { users := (m.users.insert caller ⟨.calling, callId, callee⟩).insert callee
      ⟨.ringing, callId, caller⟩
    calls := m.calls.insert callId ⟨caller, callee, false⟩ }

/-- The manager with a call marked as accepted. -/
def withAccepted (m : CallManager) (caller callee callId : Bytes) : CallManager :=
  { users := (m.users.insert callee ⟨.inCall, callId, caller⟩).insert caller
      ⟨.inCall, callId, callee⟩
    calls := m.calls.insert callId ⟨caller, callee, true⟩ }

/-- The manager with a call taken out. -/
def without (m : CallManager) (callId : Bytes) (call : CallRecord) : CallManager :=
  { users := (m.users.erase call.caller).erase call.callee
    calls := m.calls.erase callId }

/-- Every entry names a call in which the user takes part.  This holds even when a user calls himself, unlike
`Consistent`. -/
def Registered (m : CallManager) : Prop := ∀ (u : Bytes) (entry : UserCall), m.users[u]? = some entry →
  ∃ call : CallRecord, m.calls[entry.callId]? = some call ∧ (u = call.caller ∨ u = call.callee)

theorem registered_empty : Registered empty := by
  intro u entry hu
  simp [empty] at hu

theorem Registered.withCall (h : Registered m) {a b id : Bytes} (hid : m.calls[id]? = none) :
    Registered (m.withCall a b id) := by
  intro u entry hu
  rcases Tables.getElem?_insert_eq_some.mp hu with ⟨rfl, rfl⟩ | ⟨-, hu⟩
  · exact ⟨_, Tables.getElem?_insert_self _ _ _, .inr rfl⟩
  rcases Tables.getElem?_insert_eq_some.mp hu with ⟨rfl, rfl⟩ | ⟨-, hu⟩
  · exact ⟨_, Tables.getElem?_insert_self _ _ _, .inl rfl⟩
  · obtain ⟨call, hcall, hside⟩ := h u entry hu
    have hne : id ≠ entry.callId := by
      intro heq
      rw [heq, hcall] at hid
      exact absurd hid nofun
    exact ⟨call, (Tables.getElem?_insert_of_ne hne).trans hcall, hside⟩

theorem Registered.withAccepted (h : Registered m) {a b id : Bytes} {accepted : Bool}
    (hid : m.calls[id]? = some ⟨a, b, accepted⟩) : Registered (m.withAccepted a b id) := by
  intro u entry hu
  rcases Tables.getElem?_insert_eq_some.mp hu with ⟨rfl, rfl⟩ | ⟨-, hu⟩
  · exact ⟨_, Tables.getElem?_insert_self _ _ _, .inl rfl⟩
  rcases Tables.getElem?_insert_eq_some.mp hu with ⟨rfl, rfl⟩ | ⟨-, hu⟩
  · exact ⟨_, Tables.getElem?_insert_self _ _ _, .inr rfl⟩
  · obtain ⟨call, hcall, hside⟩ := h u entry hu
    by_cases heq : id = entry.callId
    · rw [← heq, hid] at hcall
      obtain rfl := Option.some.inj hcall
      refine ⟨⟨a, b, true⟩, ?_, hside⟩
      rw [← heq]
      exact Tables.getElem?_insert_self _ _ _
    · exact ⟨call, (Tables.getElem?_insert_of_ne heq).trans hcall, hside⟩

theorem Registered.without (h : Registered m) {id : Bytes} {call : CallRecord} (hid : m.calls[id]? = some call) :
    Registered (m.without id call) := by
  intro u entry hu
  obtain ⟨hcallee, hu⟩ := Tables.getElem?_erase_eq_some.mp hu
  obtain ⟨hcaller, hu⟩ := Tables.getElem?_erase_eq_some.mp hu
  obtain ⟨call', hcall, hside⟩ := h u entry hu
  have hne : id ≠ entry.callId := by
    intro heq
    rw [← heq, hid] at hcall
    obtain rfl := Option.some.inj hcall
    exact hside.elim (fun hu => hcaller hu.symm) fun hu => hcallee hu.symm
  exact ⟨call', (Tables.getElem?_erase_of_ne hne).trans hcall, hside⟩

/-- The two maps agree. -/
structure Consistent (m : CallManager) : Prop where
  distinct : ∀ {id : Bytes} {call : CallRecord}, m.calls[id]? = some call →
    call.caller ≠ call.callee
  caller : ∀ {id : Bytes} {call : CallRecord}, m.calls[id]? = some call →
    m.users[call.caller]? = some (call.callerEntry id)
  callee : ∀ {id : Bytes} {call : CallRecord}, m.calls[id]? = some call →
    m.users[call.callee]? = some (call.calleeEntry id)
  user : ∀ {u : Bytes} {entry : UserCall}, m.users[u]? = some entry →
    ∃ call, m.calls[entry.callId]? = some call ∧ (u = call.caller ∨ u = call.callee)
  size : m.users.size = 2 * m.calls.size

namespace Consistent

theorem empty : Consistent CallManager.empty := by
  refine ⟨?_, ?_, ?_, ?_, by rfl⟩ <;> intro _ _ h <;> simp [CallManager.empty] at h

theorem registered (h : Consistent m) : Registered m := fun _ _ hu => h.user hu

/-- What a user's entry says is what the call it names gives that user. -/
theorem entry (h : Consistent m) {u : Bytes} {entry : UserCall} (hu : m.users[u]? = some entry) :
    ∃ call, m.calls[entry.callId]? = some call ∧
      ((u = call.caller ∧ entry = call.callerEntry entry.callId) ∨
        (u = call.callee ∧ entry = call.calleeEntry entry.callId)) := by
  obtain ⟨call, hcall, rfl | rfl⟩ := h.user hu
  · exact ⟨call, hcall, .inl ⟨rfl, Option.some.inj (hu.symm.trans (h.caller hcall))⟩⟩
  · exact ⟨call, hcall, .inr ⟨rfl, Option.some.inj (hu.symm.trans (h.callee hcall))⟩⟩

/-- A user is in one call at most. -/
theorem unique (h : Consistent m) {u i j : Bytes} {ci cj : CallRecord} (hi : m.calls[i]? = some ci)
    (hj : m.calls[j]? = some cj) (hu : u = ci.caller ∨ u = ci.callee)
    (hu' : u = cj.caller ∨ u = cj.callee) : i = j := by
  have key : ∀ {k : Bytes} {c : CallRecord}, m.calls[k]? = some c → u = c.caller ∨ u = c.callee →
      (m.users[u]?).map UserCall.callId = some k := by
    rintro k c hk (rfl | rfl)
    · rw [h.caller hk]
      rfl
    · rw [h.callee hk]
      rfl
  exact Option.some.inj ((key hi hu).symm.trans (key hj hu'))

/-- Two calls have no participant in common. -/
theorem disjoint (h : Consistent m) {i j : Bytes} {ci cj : CallRecord} (hij : i ≠ j)
    (hi : m.calls[i]? = some ci) (hj : m.calls[j]? = some cj) :
    (ci.caller ≠ cj.caller ∧ ci.caller ≠ cj.callee) ∧
      (ci.callee ≠ cj.caller ∧ ci.callee ≠ cj.callee) := by
  refine ⟨⟨?_, ?_⟩, ⟨?_, ?_⟩⟩ <;> intro heq
  · exact hij (h.unique hi hj (.inl rfl) (.inl heq))
  · exact hij (h.unique hi hj (.inl rfl) (.inr heq))
  · exact hij (h.unique hi hj (.inr rfl) (.inl heq))
  · exact hij (h.unique hi hj (.inr rfl) (.inr heq))

/-- A new call between two idle users under a new id. -/
theorem withCall (h : Consistent m) {a b id : Bytes} (hab : a ≠ b) (ha : m.users[a]? = none)
    (hb : m.users[b]? = none) (hid : m.calls[id]? = none) : Consistent (m.withCall a b id) := by
  have old : ∀ {i : Bytes} {c : CallRecord}, m.calls[i]? = some c →
      c.caller ≠ a ∧ c.caller ≠ b ∧ c.callee ≠ a ∧ c.callee ≠ b := by
    intro i c hc
    have h₁ := h.caller hc
    have h₂ := h.callee hc
    refine ⟨?_, ?_, ?_, ?_⟩ <;> rintro rfl <;> simp_all
  unfold CallManager.withCall
  refine ⟨?_, ?_, ?_, ?_, ?_⟩
  · intro i c hc
    rcases Tables.getElem?_insert_eq_some.mp hc with ⟨rfl, rfl⟩ | ⟨-, hc⟩
    · exact hab
    · exact h.distinct hc
  · intro i c hc
    rcases Tables.getElem?_insert_eq_some.mp hc with ⟨rfl, rfl⟩ | ⟨-, hc⟩
    · rw [Tables.getElem?_insert_of_ne (Ne.symm hab), Tables.getElem?_insert_self]
      rfl
    · obtain ⟨ha', hb', -, -⟩ := old hc
      rw [Tables.getElem?_insert_of_ne (Ne.symm hb'), Tables.getElem?_insert_of_ne (Ne.symm ha')]
      exact h.caller hc
  · intro i c hc
    rcases Tables.getElem?_insert_eq_some.mp hc with ⟨rfl, rfl⟩ | ⟨-, hc⟩
    · rw [Tables.getElem?_insert_self]
      rfl
    · obtain ⟨-, -, ha', hb'⟩ := old hc
      rw [Tables.getElem?_insert_of_ne (Ne.symm hb'), Tables.getElem?_insert_of_ne (Ne.symm ha')]
      exact h.callee hc
  · exact fun hu => h.registered.withCall hid _ _ hu
  · have hb' : (m.users.insert a (⟨.calling, id, b⟩ : UserCall))[b]? = none := by
      rw [Tables.getElem?_insert_of_ne hab]
      exact hb
    rw [Tables.size_insert_of_none _ hb', Tables.size_insert_of_none _ ha,
      Tables.size_insert_of_none _ hid, h.size]
    omega

/-- A pending call becomes an accepted one. -/
theorem withAccepted (h : Consistent m) {a b id : Bytes}
    (hid : m.calls[id]? = some ⟨a, b, false⟩) : Consistent (m.withAccepted a b id) := by
  have hab : a ≠ b := h.distinct hid
  have ha := h.caller hid
  have hb := h.callee hid
  unfold CallManager.withAccepted
  refine ⟨?_, ?_, ?_, ?_, ?_⟩
  · intro i c hc
    rcases Tables.getElem?_insert_eq_some.mp hc with ⟨rfl, rfl⟩ | ⟨-, hc⟩
    · exact hab
    · exact h.distinct hc
  · intro i c hc
    rcases Tables.getElem?_insert_eq_some.mp hc with ⟨rfl, rfl⟩ | ⟨hi, hc⟩
    · rw [Tables.getElem?_insert_self]
      rfl
    · obtain ⟨⟨hac, -⟩, ⟨hbc, -⟩⟩ := h.disjoint hi hid hc
      rw [Tables.getElem?_insert_of_ne hac, Tables.getElem?_insert_of_ne hbc]
      exact h.caller hc
  · intro i c hc
    rcases Tables.getElem?_insert_eq_some.mp hc with ⟨rfl, rfl⟩ | ⟨hi, hc⟩
    · rw [Tables.getElem?_insert_of_ne hab, Tables.getElem?_insert_self]
      rfl
    · obtain ⟨⟨-, hac⟩, ⟨-, hbc⟩⟩ := h.disjoint hi hid hc
      rw [Tables.getElem?_insert_of_ne hac, Tables.getElem?_insert_of_ne hbc]
      exact h.callee hc
  · exact fun hu => h.registered.withAccepted hid _ _ hu
  · have ha' : (m.users.insert b (⟨.inCall, id, a⟩ : UserCall))[a]? = some _ :=
      (Tables.getElem?_insert_of_ne (Ne.symm hab)).trans ha
    rw [Tables.size_insert_of_some _ ha', Tables.size_insert_of_some _ hb,
      Tables.size_insert_of_some _ hid, h.size]

/-- A call and both its entries are erased. -/
theorem without (h : Consistent m) {id : Bytes} {call : CallRecord}
    (hid : m.calls[id]? = some call) : Consistent (m.without id call) := by
  have ha := h.caller hid
  have hb := h.callee hid
  have hab := h.distinct hid
  unfold CallManager.without
  refine ⟨?_, ?_, ?_, ?_, ?_⟩
  · exact fun hc => h.distinct (Tables.getElem?_erase_eq_some.mp hc).2
  · intro i c hc
    obtain ⟨hi, hc⟩ := Tables.getElem?_erase_eq_some.mp hc
    obtain ⟨⟨hac, -⟩, ⟨hbc, -⟩⟩ := h.disjoint hi hid hc
    rw [Tables.getElem?_erase_of_ne hbc, Tables.getElem?_erase_of_ne hac]
    exact h.caller hc
  · intro i c hc
    obtain ⟨hi, hc⟩ := Tables.getElem?_erase_eq_some.mp hc
    obtain ⟨⟨-, hac⟩, ⟨-, hbc⟩⟩ := h.disjoint hi hid hc
    rw [Tables.getElem?_erase_of_ne hbc, Tables.getElem?_erase_of_ne hac]
    exact h.callee hc
  · exact fun hu => h.registered.without hid _ _ hu
  · have hb' : (m.users.erase call.caller)[call.callee]? = some _ :=
      (Tables.getElem?_erase_of_ne hab).trans hb
    have h₁ := Tables.size_erase_of_some ha
    have h₂ := Tables.size_erase_of_some hb'
    have h₃ := Tables.size_erase_of_some hid
    have := h.size
    show ((m.users.erase call.caller).erase call.callee).size = 2 * (m.calls.erase id).size
    omega

end Consistent

/-! ### What each operation does, under consistency -/

/-- The calls that remain when one is taken out. -/
theorem calls_without {k id : Bytes} {c call : CallRecord}
    (h : (m.without k c).calls[id]? = some call) : m.calls[id]? = some call ∧ id ≠ k := by
  obtain ⟨hk, hid⟩ := Tables.getElem?_erase_eq_some.mp h
  exact ⟨hid, hk.symm⟩

theorem eraseCallLocked_eq {id : Bytes} {call : CallRecord} (h : m.calls[id]? = some call) :
    m.eraseCallLocked id = m.without id call := by
  rw [eraseCallLocked, h]
  rfl

theorem startCall_eq (m : CallManager) (a b id : Bytes) :
    m.startCall a b id =
      if m.users[a]?.isSome then (some (ascii "caller_busy"), m)
      else if m.users[b]?.isSome then (some (ascii "target_busy"), m)
      else if m.calls[id]?.isSome then (some (ascii "duplicate_call_id"), m)
      else (none, m.withCall a b id) := rfl

theorem startCall_eq_none {a b id : Bytes} (h : (m.startCall a b id).1 = none) :
    m.calls[id]? = none ∧ (m.startCall a b id).2 = m.withCall a b id := by
  rw [startCall_eq] at h ⊢
  split_ifs at h ⊢ with ha hb hid
  simp only [Bool.not_eq_true, Option.isSome_eq_false_iff, Option.isNone_iff_eq_none] at hid
  exact ⟨hid, rfl⟩

theorem startCall_eq_some {a b id reason : Bytes} (h : (m.startCall a b id).1 = some reason) :
    (m.startCall a b id).2 = m := by
  rw [startCall_eq] at h ⊢
  split_ifs at h ⊢ <;> rfl

/-- A pending call from `a` to `b` is all that `acceptCall` asks for. -/
theorem acceptCall_eq (h : Consistent m) (b a id : Bytes) :
    m.acceptCall b a id =
      if m.calls[id]? = some ⟨a, b, false⟩ then (none, m.withAccepted a b id)
      else (some (ascii "invalid_pending_call"), m) := by
  split_ifs with hid
  · have ha := h.caller hid
    have hb := h.callee hid
    simp only [CallRecord.callerEntry, CallRecord.calleeEntry] at ha hb
    rw [acceptCall, ha, hb, hid]
    simp [withAccepted]
  · rw [acceptCall]
    split
    · next calleeIt callerIt callIt hb ha hc =>
      refine if_pos ?_
      by_contra hguard
      simp only [not_or, not_not, Bool.not_eq_true] at hguard
      obtain ⟨-, -, -, -, -, -, hcaller, hcallee, hpending⟩ := hguard
      refine hid (hc.trans ?_)
      rw [← hcaller, ← hcallee, ← hpending]
    · rfl

/-- A pending call from `a` to `b` is all that `rejectCall` asks for. -/
theorem rejectCall_eq (h : Consistent m) (b a id : Bytes) :
    m.rejectCall b a id =
      if m.calls[id]? = some ⟨a, b, false⟩ then (none, m.without id ⟨a, b, false⟩)
      else (some (ascii "invalid_pending_call"), m) := by
  split_ifs with hid
  · have ha := h.caller hid
    have hb := h.callee hid
    simp only [CallRecord.callerEntry, CallRecord.calleeEntry] at ha hb
    rw [rejectCall, finishPendingCall, ha, hb, hid]
    simp [eraseCallLocked_eq hid]
  · rw [rejectCall, finishPendingCall]
    split
    · next userIt peerIt callIt hb ha hc =>
      refine if_pos ?_
      by_contra hguard
      simp only [not_or, not_not, not_and, Bool.not_eq_true, Bool.false_eq_true] at hguard
      obtain ⟨-, huser, -, hpeer, -, hpending, -, hcallee⟩ := hguard
      have hcallee := hcallee not_false
      -- the callee's entry names the caller, so the call is the one asked for
      have hb' := h.callee hc
      rw [hcallee, hb] at hb'
      have hcaller : callIt.caller = a := by
        rw [← hpeer, Option.some.inj hb']
        rfl
      refine hid (hc.trans ?_)
      rw [← hcaller, ← hcallee, ← hpending]
    · rfl

/-- A pending call from `a` to `b` is all that `cancelCall` asks for. -/
theorem cancelCall_eq (h : Consistent m) (a b id : Bytes) :
    m.cancelCall a b id =
      if m.calls[id]? = some ⟨a, b, false⟩ then (none, m.without id ⟨a, b, false⟩)
      else (some (ascii "invalid_pending_call"), m) := by
  split_ifs with hid
  · have ha := h.caller hid
    have hb := h.callee hid
    simp only [CallRecord.callerEntry, CallRecord.calleeEntry] at ha hb
    rw [cancelCall, finishPendingCall, ha, hb, hid]
    simp [eraseCallLocked_eq hid]
  · rw [cancelCall, finishPendingCall]
    split
    · next userIt peerIt callIt ha hb hc =>
      refine if_pos ?_
      by_contra hguard
      simp only [not_or, not_not, not_and, Bool.not_eq_true] at hguard
      obtain ⟨-, huser, -, hpeer, -, hpending, hcaller, -⟩ := hguard
      have hcaller := hcaller trivial
      -- the caller's entry names the callee, so the call is the one asked for
      have ha' := h.caller hc
      rw [hcaller, ha] at ha'
      have hcallee : callIt.callee = b := by
        rw [← hpeer, Option.some.inj ha']
        rfl
      refine hid (hc.trans ?_)
      rw [← hcaller, ← hcallee, ← hpending]
    · rfl

/-- The guard of `hangupCall` and `validateSignaling` asks for an accepted call between the two. -/
theorem inSameActiveCall_eq_some (h : Consistent m) {x y id : Bytes} {call : CallRecord} :
    m.inSameActiveCall x y id = some call ↔
      m.calls[id]? = some call ∧ call.accepted = true ∧ call.between x y := by
  constructor
  · intro hsome
    rw [inSameActiveCall] at hsome
    split at hsome
    · next userIt peerIt callIt hx hy hc =>
      split_ifs at hsome with hguard
      obtain rfl := Option.some.inj hsome
      simp only [not_or, not_not] at hguard
      obtain ⟨-, -, hxid, hyid, hxpeer, hypeer, haccepted⟩ := hguard
      refine ⟨hc, haccepted, ?_⟩
      obtain ⟨c, hcx, hside⟩ := h.entry hx
      rw [hxid, hc] at hcx
      obtain rfl := Option.some.inj hcx
      rcases hside with ⟨rfl, he⟩ | ⟨rfl, he⟩
      · refine .inl ⟨rfl, ?_⟩
        rw [← hxpeer, he]
        rfl
      · refine .inr ⟨?_, rfl⟩
        rw [← hxpeer, he]
        rfl
    · exact absurd hsome (by simp)
  · rintro ⟨hc, haccepted, hbetween⟩
    have ha := h.caller hc
    have hb := h.callee hc
    simp only [CallRecord.callerEntry, CallRecord.calleeEntry, haccepted, if_true] at ha hb
    rcases hbetween with ⟨rfl, rfl⟩ | ⟨rfl, rfl⟩
    · rw [inSameActiveCall, ha, hb, hc]
      simp [haccepted]
    · rw [inSameActiveCall, ha, hb, hc]
      simp [haccepted]

/-- An accepted call between the two is all that `hangupCall` asks for. -/
theorem hangupCall_of_active (h : Consistent m) {x y id : Bytes} {call : CallRecord}
    (hc : m.calls[id]? = some call) (haccepted : call.accepted = true)
    (hbetween : call.between x y) :
    m.hangupCall x y id = (none, m.without id call) := by
  have hactive := (inSameActiveCall_eq_some h).mpr ⟨hc, haccepted, hbetween⟩
  rw [hangupCall, hactive, eraseCallLocked_eq hc]

theorem hangupCall_of_not_active (h : Consistent m) {x y id : Bytes}
    (hnone : ∀ call, m.calls[id]? = some call → call.accepted = true →
      ¬ call.between x y) :
    m.hangupCall x y id = (some (ascii "invalid_active_call"), m) := by
  rw [hangupCall]
  cases hactive : m.inSameActiveCall x y id with
  | none => rfl
  | some call =>
    obtain ⟨hc, haccepted, hbetween⟩ := (inSameActiveCall_eq_some h).mp hactive
    exact absurd hbetween (hnone call hc haccepted)

/-- What `validateSignaling` lets through: an accepted call between the two, an offer from its caller,
an answer from its callee. -/
theorem validateSignaling_eq_none (h : Consistent m) {x y id type : Bytes} :
    m.validateSignaling x y id type = none ↔
      ∃ call, m.calls[id]? = some call ∧ call.accepted = true ∧ call.between x y ∧
        (type = ascii "webrtc_offer" → call.caller = x) ∧
        (type = ascii "webrtc_answer" → call.callee = x) := by
  rw [validateSignaling]
  constructor
  · intro hvalid
    cases hactive : m.inSameActiveCall x y id with
    | none => simp [hactive] at hvalid
    | some call =>
      obtain ⟨hc, haccepted, hbetween⟩ := (inSameActiveCall_eq_some h).mp hactive
      rw [hactive] at hvalid
      dsimp only at hvalid
      split_ifs at hvalid with hoffer hanswer
      refine ⟨call, hc, haccepted, hbetween, fun ht => ?_, fun ht => ?_⟩
      · by_contra hne
        exact hoffer ⟨ht, hne⟩
      · by_contra hne
        exact hanswer ⟨ht, hne⟩
  · rintro ⟨call, hc, haccepted, hbetween, hoffer, hanswer⟩
    rw [(inSameActiveCall_eq_some h).mpr ⟨hc, haccepted, hbetween⟩]
    dsimp only
    rw [if_neg fun hbad => hbad.2 (hoffer hbad.1), if_neg fun hbad => hbad.2 (hanswer hbad.1)]

/-- `removeUser` takes out the call of which the user is the caller, … -/
theorem removeUser_caller (h : Consistent m) {id : Bytes} {call : CallRecord}
    (hc : m.calls[id]? = some call) :
    m.removeUser call.caller =
      (some ⟨id, call.callee, if call.accepted then .inCall else .calling⟩, m.without id call) := by
  rw [removeUser, h.caller hc]
  show (some _, m.eraseCallLocked id) = _
  rw [eraseCallLocked_eq hc]
  rfl

/-- … or the callee; … -/
theorem removeUser_callee (h : Consistent m) {id : Bytes} {call : CallRecord}
    (hc : m.calls[id]? = some call) :
    m.removeUser call.callee =
      (some ⟨id, call.caller, if call.accepted then .inCall else .ringing⟩, m.without id call) := by
  rw [removeUser, h.callee hc]
  show (some _, m.eraseCallLocked id) = _
  rw [eraseCallLocked_eq hc]
  rfl

/-- … and does nothing for a user without a call. -/
theorem removeUser_idle {u : Bytes} (hu : m.users[u]? = none) : m.removeUser u = (none, m) := by
  rw [removeUser, hu]

/-- A user without an entry takes part in no call, and the other way round. -/
theorem users_eq_none_iff (h : Consistent m) {u : Bytes} :
    m.users[u]? = none ↔
      ∀ (id : Bytes) (call : CallRecord), m.calls[id]? = some call →
        u ≠ call.caller ∧ u ≠ call.callee := by
  constructor
  · intro hu id call hc
    refine ⟨?_, ?_⟩ <;> rintro rfl
    · exact absurd (hu.symm.trans (h.caller hc)) (by simp)
    · exact absurd (hu.symm.trans (h.callee hc)) (by simp)
  · intro hnone
    cases hu : m.users[u]? with
    | none => rfl
    | some entry =>
      obtain ⟨call, hc, hside⟩ := h.user hu
      obtain ⟨h₁, h₂⟩ := hnone _ call hc
      rcases hside with rfl | rfl
      · exact absurd rfl h₁
      · exact absurd rfl h₂

end CallManager

/-! ### Runs of operations -/

/-- One call of a public method, with its arguments. -/
inductive CallOperation where
  | startCall (caller callee callId : Bytes)
  | acceptCall (callee caller callId : Bytes)
  | rejectCall (callee caller callId : Bytes)
  | cancelCall (caller callee callId : Bytes)
  | timeoutCall (caller callee callId : Bytes)
  | hangupCall (username peer callId : Bytes)
  | validateSignaling (username peer callId type : Bytes)
  | removeUser (username : Bytes)
deriving DecidableEq, Repr

namespace CallOperation

/-- The manager after the operation. -/
def apply (m : CallManager) : CallOperation → CallManager
  | startCall caller callee callId => (m.startCall caller callee callId).2
  | acceptCall callee caller callId => (m.acceptCall callee caller callId).2
  | rejectCall callee caller callId => (m.rejectCall callee caller callId).2
  | cancelCall caller callee callId => (m.cancelCall caller callee callId).2
  | timeoutCall caller callee callId => (m.timeoutCall caller callee callId).2
  | hangupCall username peer callId => (m.hangupCall username peer callId).2
  | validateSignaling _ _ _ _ => m
  | removeUser username => (m.removeUser username).2

/-- `startCall` is called with two different users only: `handleCallRequest` turns a call to oneself
away before. -/
def Admissible : CallOperation → Prop
  | startCall caller callee _ => caller ≠ callee
  | _ => True

instance : DecidablePred Admissible := fun op => by
  cases op <;> unfold Admissible <;> infer_instance

end CallOperation

namespace CallManager

/-- A run of operations. -/
def applyAll (m : CallManager) (ops : List CallOperation) : CallManager :=
  ops.foldl CallOperation.apply m

variable {m : CallManager}

/-- At most one call has been taken out. -/
def TakesOut (m m' : CallManager) : Prop :=
  m' = m ∨ ∃ id call, m.calls[id]? = some call ∧ m' = m.without id call

theorem TakesOut.consistent {m' : CallManager} (h : TakesOut m m') (hm : Consistent m) :
    Consistent m' := by
  rcases h with rfl | ⟨id, call, hid, rfl⟩
  · exact hm
  · exact hm.without hid

theorem TakesOut.calls {m' : CallManager} (h : TakesOut m m') {id : Bytes} {call : CallRecord}
    (hid : m'.calls[id]? = some call) : m.calls[id]? = some call := by
  rcases h with rfl | ⟨k, c, -, rfl⟩
  · exact hid
  · exact (calls_without hid).1

theorem takesOut_rejectCall (h : Consistent m) (b a id : Bytes) :
    TakesOut m (m.rejectCall b a id).2 := by
  rw [rejectCall_eq h]
  split_ifs with hid
  · exact .inr ⟨id, _, hid, rfl⟩
  · exact .inl rfl

theorem takesOut_cancelCall (h : Consistent m) (a b id : Bytes) :
    TakesOut m (m.cancelCall a b id).2 := by
  rw [cancelCall_eq h]
  split_ifs with hid
  · exact .inr ⟨id, _, hid, rfl⟩
  · exact .inl rfl

theorem takesOut_hangupCall (h : Consistent m) (x y id : Bytes) :
    TakesOut m (m.hangupCall x y id).2 := by
  by_cases hactive : ∃ call, m.calls[id]? = some call ∧ call.accepted = true ∧ call.between x y
  · obtain ⟨call, hc, haccepted, hbetween⟩ := hactive
    rw [hangupCall_of_active h hc haccepted hbetween]
    exact .inr ⟨id, call, hc, rfl⟩
  · rw [hangupCall_of_not_active h fun call hc haccepted hbetween =>
      hactive ⟨call, hc, haccepted, hbetween⟩]
    exact .inl rfl

theorem takesOut_removeUser (h : Consistent m) (u : Bytes) : TakesOut m (m.removeUser u).2 := by
  cases hu : m.users[u]? with
  | none =>
    rw [removeUser_idle hu]
    exact .inl rfl
  | some entry =>
    obtain ⟨call, hc, rfl | rfl⟩ := h.user hu
    · rw [removeUser_caller h hc]
      exact .inr ⟨_, call, hc, rfl⟩
    · rw [removeUser_callee h hc]
      exact .inr ⟨_, call, hc, rfl⟩

/-- The calls that a `removeUser` leaves are those of other users. -/
theorem Consistent.calls_removeUser (h : Consistent m) {u id : Bytes} {call : CallRecord}
    (hid : (m.removeUser u).2.calls[id]? = some call) :
    m.calls[id]? = some call ∧ u ≠ call.caller ∧ u ≠ call.callee := by
  cases hu : m.users[u]? with
  | none =>
    rw [removeUser_idle hu] at hid
    exact ⟨hid, (users_eq_none_iff h).mp hu id call hid⟩
  | some entry =>
    obtain ⟨c, hc, hside⟩ := h.user hu
    have hid' : (m.without entry.callId c).calls[id]? = some call := by
      rcases hside with rfl | rfl
      · rwa [removeUser_caller h hc] at hid
      · rwa [removeUser_callee h hc] at hid
    obtain ⟨hold, hne⟩ := calls_without hid'
    refine ⟨hold, ?_, ?_⟩ <;> intro huser
    · exact hne (h.unique hold hc (.inl huser) hside)
    · exact hne (h.unique hold hc (.inr huser) hside)

theorem Consistent.startCall (h : Consistent m) {a b : Bytes} (hab : a ≠ b) (id : Bytes) :
    Consistent (m.startCall a b id).2 := by
  rw [startCall_eq]
  split_ifs with ha hb hid
  · exact h
  · exact h
  · exact h
  · simp only [Bool.not_eq_true, Option.isSome_eq_false_iff, Option.isNone_iff_eq_none] at ha hb hid
    exact h.withCall hab ha hb hid

/-- **One operation keeps the maps consistent.** -/
theorem Consistent.apply (h : Consistent m) {op : CallOperation} (hop : op.Admissible) :
    Consistent (op.apply m) := by
  cases op with
  | startCall a b id => exact h.startCall hop id
  | acceptCall b a id =>
    show Consistent (m.acceptCall b a id).2
    rw [acceptCall_eq h]
    split_ifs with hid
    · exact h.withAccepted hid
    · exact h
  | rejectCall b a id => exact (takesOut_rejectCall h b a id).consistent h
  | cancelCall a b id => exact (takesOut_cancelCall h a b id).consistent h
  | timeoutCall a b id => exact (takesOut_cancelCall h a b id).consistent h
  | hangupCall x y id => exact (takesOut_hangupCall h x y id).consistent h
  | validateSignaling x y id type => exact h
  | removeUser u => exact (takesOut_removeUser h u).consistent h

/-- **A run of operations keeps the maps consistent.** -/
theorem Consistent.applyAll (h : Consistent m) {ops : List CallOperation}
    (hops : ∀ op ∈ ops, op.Admissible) : Consistent (m.applyAll ops) := by
  induction ops generalizing m with
  | nil => exact h
  | cons op ops ih =>
    exact ih (h.apply (hops op (by simp))) fun op' hop' => hops op' (by simp [hop'])

/-- Of two participants each is the other's peer, in the same call. -/
theorem Consistent.peer_symm (h : Consistent m) {u : Bytes} {entry : UserCall}
    (hu : m.users[u]? = some entry) :
    ∃ entry', m.users[entry.peer]? = some entry' ∧ entry'.peer = u ∧
      entry'.callId = entry.callId := by
  obtain ⟨call, hc, ⟨rfl, he⟩ | ⟨rfl, he⟩⟩ := h.entry hu
  · refine ⟨call.calleeEntry entry.callId, ?_, rfl, rfl⟩
    rw [he]
    exact h.callee hc
  · refine ⟨call.callerEntry entry.callId, ?_, rfl, rfl⟩
    rw [he]
    exact h.caller hc

/-- **The two maps never disagree.**  After any run of operations from the empty manager each call
gives exactly its two participants their entries, each entry belongs to a call, no user is in two
calls, peers are symmetric, and there are two entries for each call. -/
theorem maps_agree_after_any_run (ops : List CallOperation) (hops : ∀ op ∈ ops, op.Admissible) :
    let m := CallManager.empty.applyAll ops
    (∀ (id : Bytes) (call : CallRecord), m.calls[id]? = some call →
      call.caller ≠ call.callee ∧
      m.users[call.caller]? =
        some ⟨if call.accepted then .inCall else .calling, id, call.callee⟩ ∧
      m.users[call.callee]? =
        some ⟨if call.accepted then .inCall else .ringing, id, call.caller⟩) ∧
    (∀ (u : Bytes) (entry : UserCall), m.users[u]? = some entry →
      ∃ call, m.calls[entry.callId]? = some call ∧ (u = call.caller ∨ u = call.callee)) ∧
    (∀ (u i j : Bytes) (ci cj : CallRecord), m.calls[i]? = some ci → m.calls[j]? = some cj →
      (u = ci.caller ∨ u = ci.callee) → (u = cj.caller ∨ u = cj.callee) → i = j) ∧
    (∀ (u : Bytes) (entry : UserCall), m.users[u]? = some entry →
      ∃ entry', m.users[entry.peer]? = some entry' ∧ entry'.peer = u ∧
        entry'.callId = entry.callId) ∧
    m.users.size = 2 * m.calls.size := by
  intro m
  have h : Consistent m := Consistent.empty.applyAll hops
  exact ⟨fun id call hc => ⟨h.distinct hc, h.caller hc, h.callee hc⟩, fun u entry hu => h.user hu,
    fun u i j ci cj hi hj hui huj => h.unique hi hj hui huj, fun u entry hu => h.peer_symm hu,
    h.size⟩

theorem maps_agree_after_accepted_call :
    (CallManager.empty.applyAll
      [.startCall (ascii "alice") (ascii "bob") (ascii "c1"),
        .acceptCall (ascii "bob") (ascii "alice") (ascii "c1")]).users.size = 2 := by
  have h := maps_agree_after_any_run
    [.startCall (ascii "alice") (ascii "bob") (ascii "c1"),
      .acceptCall (ascii "bob") (ascii "alice") (ascii "c1")] (by decide)
  have hcalls : (CallManager.empty.applyAll
      [.startCall (ascii "alice") (ascii "bob") (ascii "c1"),
        .acceptCall (ascii "bob") (ascii "alice") (ascii "c1")]).calls.size = 1 := by
    decide +kernel
  have := h.2.2.2.2
  omega

end CallManager

end ChatService
