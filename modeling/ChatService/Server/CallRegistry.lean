import ChatService.Server.CallConsistency
import Mathlib.Data.Set.Finite.Basic
import Mathlib.Data.Finset.Dedup

/-!
# What `CallManager` is for: a registry of disjoint calls

`CallRegistry` is one finite map from call ids to calls whose participants are pairwise disjoint, over
any types of ids and users.  Its three changes — add, accept, remove — carry the proofs that they lead
to a registry again.  `CallRegistry.Step` says which change each operation may make and when.

A consistent `CallManager` represents the registry of its call map, and every operation on it is a
step of the registry when there is one, and fails and changes nothing when there is none
(`simulates`).
-/

namespace ChatService

/-- A call between two users. -/
structure Call (User : Type) where
  caller : User
  callee : User
  accepted : Bool
deriving DecidableEq

namespace Call

variable {User : Type}

def Involves (call : Call User) (x : User) : Prop := x = call.caller ∨ x = call.callee

def Between (call : Call User) (x y : User) : Prop :=
  (call.caller = x ∧ call.callee = y) ∨ (call.caller = y ∧ call.callee = x)

/-- The participant who is not `x`. -/
def other [DecidableEq User] (call : Call User) (x : User) : User :=
  if x = call.caller then call.callee else call.caller

end Call

/-- A finite map from call ids to calls without common participants. -/
@[ext]
structure CallRegistry (Id User : Type) where
  calls : Id → Option (Call User)
  finite : {id | calls id ≠ none}.Finite
  distinct : ∀ {id call}, calls id = some call → call.caller ≠ call.callee
  disjoint : ∀ {i j ci cj x}, calls i = some ci → calls j = some cj → ci.Involves x →
    cj.Involves x → i = j

namespace CallRegistry

variable {Id User : Type} [DecidableEq Id]

/-- `x` takes part in no call. -/
def Free (r : CallRegistry Id User) (x : User) : Prop :=
  ∀ id call, r.calls id = some call → ¬ call.Involves x

/-- Changing one id keeps the map finite. -/
theorem finite_update (r : CallRegistry Id User) (id : Id) (call : Option (Call User)) :
    {i | Function.update r.calls id call i ≠ none}.Finite := by
  refine (r.finite.insert id).subset fun i hi => ?_
  by_cases hid : i = id
  · exact .inl hid
  · refine .inr ?_
    have hne : Function.update r.calls id call i ≠ none := hi
    rwa [Function.update_of_ne hid] at hne

/-- A new pending call between two free users. -/
def add (r : CallRegistry Id User) {a b : User} (id : Id) (hab : a ≠ b) (ha : r.Free a)
    (hb : r.Free b) : CallRegistry Id User where
  calls := Function.update r.calls id (some ⟨a, b, false⟩)
  finite := r.finite_update id _
  distinct := by
    intro i call hi
    by_cases hid : i = id
    · rw [hid, Function.update_self] at hi
      obtain rfl := Option.some.inj hi
      exact hab
    · rw [Function.update_of_ne hid] at hi
      exact r.distinct hi
  disjoint := by
    intro i j ci cj x hi hj hxi hxj
    have free : ∀ {k c}, r.calls k = some c → c.Involves x → ¬ (x = a ∨ x = b) := by
      rintro k c hk hx (rfl | rfl)
      · exact ha k c hk hx
      · exact hb k c hk hx
    by_cases hi' : i = id <;> by_cases hj' : j = id
    · rw [hi', hj']
    · rw [hi', Function.update_self] at hi
      rw [Function.update_of_ne hj'] at hj
      obtain rfl := Option.some.inj hi
      exact absurd hxi (free hj hxj)
    · rw [hj', Function.update_self] at hj
      rw [Function.update_of_ne hi'] at hi
      obtain rfl := Option.some.inj hj
      exact absurd hxj (free hi hxi)
    · rw [Function.update_of_ne hi'] at hi
      rw [Function.update_of_ne hj'] at hj
      exact r.disjoint hi hj hxi hxj

/-- A call marked as accepted. -/
def accept (r : CallRegistry Id User) {a b : User} {id : Id}
    (hid : r.calls id = some ⟨a, b, false⟩) : CallRegistry Id User where
  calls := Function.update r.calls id (some ⟨a, b, true⟩)
  finite := r.finite_update id _
  distinct := by
    intro i call hi
    by_cases hi' : i = id
    · rw [hi', Function.update_self] at hi
      obtain rfl := Option.some.inj hi
      have hpending : (⟨a, b, false⟩ : Call User).caller ≠ b := r.distinct hid
      exact hpending
    · rw [Function.update_of_ne hi'] at hi
      exact r.distinct hi
  disjoint := by
    -- an id keeps its participants, so the old calls decide
    have old : ∀ {k c x}, Function.update r.calls id (some ⟨a, b, true⟩) k = some c →
        c.Involves x → ∃ c', r.calls k = some c' ∧ c'.Involves x := by
      intro k c x hk hx
      by_cases hk' : k = id
      · rw [hk', Function.update_self] at hk
        obtain rfl := Option.some.inj hk
        subst hk'
        exact ⟨_, hid, hx⟩
      · rw [Function.update_of_ne hk'] at hk
        exact ⟨c, hk, hx⟩
    intro i j ci cj x hi hj hxi hxj
    obtain ⟨ci', hi', hxi'⟩ := old hi hxi
    obtain ⟨cj', hj', hxj'⟩ := old hj hxj
    exact r.disjoint hi' hj' hxi' hxj'

/-- A call taken out. -/
def remove (r : CallRegistry Id User) (id : Id) : CallRegistry Id User where
  calls := Function.update r.calls id none
  finite := r.finite_update id _
  distinct := by
    intro i call hi
    by_cases hi' : i = id
    · simp [hi'] at hi
    · rw [Function.update_of_ne hi'] at hi
      exact r.distinct hi
  disjoint := by
    intro i j ci cj x hi hj hxi hxj
    by_cases hi' : i = id
    · simp [hi'] at hi
    by_cases hj' : j = id
    · simp [hj'] at hj
    rw [Function.update_of_ne hi'] at hi
    rw [Function.update_of_ne hj'] at hj
    exact r.disjoint hi hj hxi hxj

/-! ### The operations, as steps of a registry -/

/-- Which operations succeed, and where they lead.  Everything not listed fails. -/
inductive Step (r : CallRegistry Bytes Bytes) : CallOperation → CallRegistry Bytes Bytes → Prop where
  | startCall {a b id} (hab : a ≠ b) (ha : r.Free a) (hb : r.Free b) (hid : r.calls id = none) :
      Step r (.startCall a b id) (r.add id hab ha hb)
  | acceptCall {a b id} (hid : r.calls id = some ⟨a, b, false⟩) :
      Step r (.acceptCall b a id) (r.accept hid)
  | rejectCall {a b id} (hid : r.calls id = some ⟨a, b, false⟩) :
      Step r (.rejectCall b a id) (r.remove id)
  | cancelCall {a b id} (hid : r.calls id = some ⟨a, b, false⟩) :
      Step r (.cancelCall a b id) (r.remove id)
  | timeoutCall {a b id} (hid : r.calls id = some ⟨a, b, false⟩) :
      Step r (.timeoutCall a b id) (r.remove id)
  | hangupCall {x y id call} (hid : r.calls id = some call) (haccepted : call.accepted = true)
      (hbetween : call.Between x y) : Step r (.hangupCall x y id) (r.remove id)
  | validateSignaling {x y id type call} (hid : r.calls id = some call)
      (haccepted : call.accepted = true) (hbetween : call.Between x y)
      (hoffer : type = ascii "webrtc_offer" → call.caller = x)
      (hanswer : type = ascii "webrtc_answer" → call.callee = x) :
      Step r (.validateSignaling x y id type) r
  | removeUser {x id call} (hid : r.calls id = some call) (hx : call.Involves x) :
      Step r (.removeUser x) (r.remove id)

end CallRegistry

/-! ### The registry a manager represents -/

def CallRecord.toCall (call : CallRecord) : Call Bytes := ⟨call.caller, call.callee, call.accepted⟩

theorem CallRecord.toCall_injective : Function.Injective CallRecord.toCall := by
  rintro ⟨a, b, c⟩ ⟨a', b', c'⟩ h
  simpa [CallRecord.toCall] using h

/-- What the manager reports about an operation: whether it returned `true`. -/
def CallOperation.succeeds (m : CallManager) : CallOperation → Bool
  | startCall caller callee callId => (m.startCall caller callee callId).1.isNone
  | acceptCall callee caller callId => (m.acceptCall callee caller callId).1.isNone
  | rejectCall callee caller callId => (m.rejectCall callee caller callId).1.isNone
  | cancelCall caller callee callId => (m.cancelCall caller callee callId).1.isNone
  | timeoutCall caller callee callId => (m.timeoutCall caller callee callId).1.isNone
  | hangupCall username peer callId => (m.hangupCall username peer callId).1.isNone
  | validateSignaling username peer callId type =>
    (m.validateSignaling username peer callId type).isNone
  | removeUser username => (m.removeUser username).1.isSome

namespace CallManager

variable {m m' : CallManager}

theorem finite_calls (m : CallManager) :
    {id : Bytes | (m.calls[id]?).map CallRecord.toCall ≠ none}.Finite := by
  refine (m.calls.keys.toFinset.finite_toSet).subset fun id hid => ?_
  have hsome : m.calls[id]? ≠ none := fun hnone => hid (by rw [hnone]; rfl)
  simpa [Option.ne_none_iff_isSome] using hsome

/-- The registry of a consistent manager: its call map. -/
def Consistent.registry (h : Consistent m) : CallRegistry Bytes Bytes where
  calls id := (m.calls[id]?).map CallRecord.toCall
  finite := m.finite_calls
  distinct := by
    intro id call hc
    obtain ⟨record, hr, rfl⟩ := Option.map_eq_some_iff.mp hc
    exact h.distinct hr
  disjoint := by
    intro i j ci cj x hi hj hxi hxj
    obtain ⟨ri, hri, rfl⟩ := Option.map_eq_some_iff.mp hi
    obtain ⟨rj, hrj, rfl⟩ := Option.map_eq_some_iff.mp hj
    exact h.unique hri hrj hxi hxj

theorem registry_calls_eq_some (h : Consistent m) {id a b : Bytes} {accepted : Bool} :
    h.registry.calls id = some ⟨a, b, accepted⟩ ↔ m.calls[id]? = some ⟨a, b, accepted⟩ := by
  constructor
  · intro hc
    obtain ⟨record, hr, he⟩ := Option.map_eq_some_iff.mp hc
    rw [hr]
    exact congrArg some (CallRecord.toCall_injective he)
  · intro hc
    show (m.calls[id]?).map CallRecord.toCall = _
    rw [hc]
    rfl

theorem registry_calls_eq_none (h : Consistent m) {id : Bytes} :
    h.registry.calls id = none ↔ m.calls[id]? = none :=
  Option.map_eq_none_iff

/-- Free in the registry is idle in the manager. -/
theorem registry_free (h : Consistent m) {x : Bytes} :
    h.registry.Free x ↔ m.users[x]? = none := by
  rw [users_eq_none_iff h]
  constructor
  · intro hfree id call hc
    have := hfree id call.toCall ((registry_calls_eq_some h).mpr hc)
    exact ⟨fun hx => this (.inl hx), fun hx => this (.inr hx)⟩
  · rintro hidle id ⟨a, b, accepted⟩ hc hx
    obtain ⟨h₁, h₂⟩ := hidle id _ ((registry_calls_eq_some h).mp hc)
    exact hx.elim h₁ h₂

/-! ### The call maps after a change -/

theorem registry_withCall (h : Consistent m) {a b id : Bytes} (h' : Consistent (m.withCall a b id)) :
    h'.registry.calls = Function.update h.registry.calls id (some ⟨a, b, false⟩) :=
  Tables.map_insert m.calls id ⟨a, b, false⟩ CallRecord.toCall

theorem registry_withAccepted (h : Consistent m) {a b id : Bytes}
    (h' : Consistent (m.withAccepted a b id)) :
    h'.registry.calls = Function.update h.registry.calls id (some ⟨a, b, true⟩) :=
  Tables.map_insert m.calls id ⟨a, b, true⟩ CallRecord.toCall

theorem registry_without (h : Consistent m) {id : Bytes} {call : CallRecord}
    (h' : Consistent (m.without id call)) :
    h'.registry.calls = Function.update h.registry.calls id none :=
  Tables.map_erase m.calls id CallRecord.toCall

/-! ### Simulation -/

/-- The manager takes a step: it reports success and represents the registry the step leads to. -/
def Takes (m : CallManager) (op : CallOperation) (r' : CallRegistry Bytes Bytes) : Prop :=
  op.succeeds m = true ∧ ∃ h' : Consistent (op.apply m), h'.registry = r'

theorem takes_of_eq {op : CallOperation} {r' : CallRegistry Bytes Bytes}
    (hs : op.succeeds m = true) (happly : op.apply m = m') (h' : Consistent m')
    (hcalls : h'.registry.calls = r'.calls) : Takes m op r' := by
  subst happly
  exact ⟨hs, h', CallRegistry.ext hcalls⟩

/-- **Every step of the registry is taken.** -/
theorem takes_of_step (h : Consistent m) {op : CallOperation} {r' : CallRegistry Bytes Bytes}
    (hstep : CallRegistry.Step h.registry op r') : Takes m op r' := by
  cases hstep with
  | @startCall a b id hab ha hb hid =>
    have ha' := (registry_free h).mp ha
    have hb' := (registry_free h).mp hb
    have hid' := (registry_calls_eq_none h).mp hid
    have heq : m.startCall a b id = (none, m.withCall a b id) := by
      rw [startCall_eq, ha', hb', hid']
      rfl
    have h' := h.withCall hab ha' hb' hid'
    exact takes_of_eq (congrArg (·.1.isNone) heq) (congrArg Prod.snd heq) h' (registry_withCall h h')
  | @acceptCall a b id hid =>
    have hid' := (registry_calls_eq_some h).mp hid
    have heq := (acceptCall_eq h b a id).trans (if_pos hid')
    have h' := h.withAccepted hid'
    exact takes_of_eq (congrArg (·.1.isNone) heq) (congrArg Prod.snd heq) h'
      (registry_withAccepted h h')
  | @rejectCall a b id hid =>
    have hid' := (registry_calls_eq_some h).mp hid
    have heq := (rejectCall_eq h b a id).trans (if_pos hid')
    have h' := h.without hid'
    exact takes_of_eq (congrArg (·.1.isNone) heq) (congrArg Prod.snd heq) h' (registry_without h h')
  | @cancelCall a b id hid =>
    have hid' := (registry_calls_eq_some h).mp hid
    have heq := (cancelCall_eq h a b id).trans (if_pos hid')
    have h' := h.without hid'
    exact takes_of_eq (congrArg (·.1.isNone) heq) (congrArg Prod.snd heq) h' (registry_without h h')
  | @timeoutCall a b id hid =>
    have hid' := (registry_calls_eq_some h).mp hid
    have heq := (cancelCall_eq h a b id).trans (if_pos hid')
    have h' := h.without hid'
    exact takes_of_eq (congrArg (·.1.isNone) heq) (congrArg Prod.snd heq) h' (registry_without h h')
  | @hangupCall x y id call hid haccepted hbetween =>
    have hid' := (registry_calls_eq_some h).mp hid
    have heq := hangupCall_of_active h hid' haccepted hbetween
    have h' := h.without hid'
    exact takes_of_eq (congrArg (·.1.isNone) heq) (congrArg Prod.snd heq) h' (registry_without h h')
  | @validateSignaling x y id type call hid haccepted hbetween hoffer hanswer =>
    have hid' := (registry_calls_eq_some h).mp hid
    have heq : m.validateSignaling x y id type = none :=
      (validateSignaling_eq_none h).mpr ⟨_, hid', haccepted, hbetween, hoffer, hanswer⟩
    exact takes_of_eq (congrArg Option.isNone heq) rfl h rfl
  | @removeUser x id call hid hx =>
    have hid' := (registry_calls_eq_some h).mp hid
    have h' := h.without hid'
    rcases hx with rfl | rfl
    · have heq := removeUser_caller h hid'
      exact takes_of_eq (congrArg (·.1.isSome) heq) (congrArg Prod.snd heq) h'
        (registry_without h h')
    · have heq := removeUser_callee h hid'
      exact takes_of_eq (congrArg (·.1.isSome) heq) (congrArg Prod.snd heq) h'
        (registry_without h h')

/-- **Where the registry has no step, the operation fails and changes nothing.** -/
theorem fails_of_no_step (h : Consistent m) {op : CallOperation} (hop : op.Admissible)
    (hno : ∀ r', ¬ CallRegistry.Step h.registry op r') :
    op.succeeds m = false ∧ op.apply m = m := by
  cases op with
  | startCall a b id =>
    have hbusy : (m.startCall a b id).1.isNone = false ∧ (m.startCall a b id).2 = m := by
      rw [startCall_eq]
      split_ifs with ha hb hid
      · exact ⟨rfl, rfl⟩
      · exact ⟨rfl, rfl⟩
      · exact ⟨rfl, rfl⟩
      · simp only [Bool.not_eq_true, Option.isSome_eq_false_iff, Option.isNone_iff_eq_none]
          at ha hb hid
        exact absurd (.startCall hop ((registry_free h).mpr ha) ((registry_free h).mpr hb)
          ((registry_calls_eq_none h).mpr hid)) (hno _)
    exact hbusy
  | acceptCall b a id =>
    have heq := (acceptCall_eq h b a id).trans
      (if_neg fun hid => hno _ (.acceptCall ((registry_calls_eq_some h).mpr hid)))
    exact ⟨congrArg (·.1.isNone) heq, congrArg Prod.snd heq⟩
  | rejectCall b a id =>
    have heq := (rejectCall_eq h b a id).trans
      (if_neg fun hid => hno _ (.rejectCall ((registry_calls_eq_some h).mpr hid)))
    exact ⟨congrArg (·.1.isNone) heq, congrArg Prod.snd heq⟩
  | cancelCall a b id =>
    have heq := (cancelCall_eq h a b id).trans
      (if_neg fun hid => hno _ (.cancelCall ((registry_calls_eq_some h).mpr hid)))
    exact ⟨congrArg (·.1.isNone) heq, congrArg Prod.snd heq⟩
  | timeoutCall a b id =>
    have heq := (cancelCall_eq h a b id).trans
      (if_neg fun hid => hno _ (.timeoutCall ((registry_calls_eq_some h).mpr hid)))
    exact ⟨congrArg (·.1.isNone) heq, congrArg Prod.snd heq⟩
  | hangupCall x y id =>
    have heq := @hangupCall_of_not_active m h x y id
      fun call hc haccepted hbetween =>
        have hc' : h.registry.calls id = some call.toCall := (registry_calls_eq_some h).mpr hc
        hno _ (.hangupCall hc' haccepted hbetween)
    exact ⟨congrArg (·.1.isNone) heq, congrArg Prod.snd heq⟩
  | validateSignaling x y id type =>
    refine ⟨?_, rfl⟩
    cases hvalid : m.validateSignaling x y id type with
    | some reason =>
      show (m.validateSignaling x y id type).isNone = false
      rw [hvalid]
      rfl
    | none =>
      obtain ⟨call, hc, haccepted, hbetween, hoffer, hanswer⟩ := (validateSignaling_eq_none h).mp hvalid
      have hc' : h.registry.calls id = some call.toCall := (registry_calls_eq_some h).mpr hc
      exact absurd (.validateSignaling hc' haccepted hbetween hoffer hanswer) (hno _)
  | removeUser x =>
    have hfree : h.registry.Free x := fun id call hc hx => hno _ (.removeUser hc hx)
    have heq := removeUser_idle ((registry_free h).mp hfree)
    exact ⟨congrArg (·.1.isSome) heq, congrArg Prod.snd heq⟩

/-- A user whose calls are the same before and after has the same entry. -/
theorem users_congr (h : Consistent m) (h' : Consistent m') {u : Bytes}
    (hsame : ∀ (id : Bytes) (call : CallRecord), u = call.caller ∨ u = call.callee →
      (m.calls[id]? = some call ↔ m'.calls[id]? = some call)) :
    m.users[u]? = m'.users[u]? := by
  have half : ∀ {n n' : CallManager}, Consistent n → Consistent n' →
      (∀ (id : Bytes) (call : CallRecord), u = call.caller ∨ u = call.callee →
        n.calls[id]? = some call → n'.calls[id]? = some call) →
      ∀ entry, n.users[u]? = some entry → n'.users[u]? = some entry := by
    intro n n' hn hn' himp entry hu
    obtain ⟨call, hc, ⟨hside, he⟩ | ⟨hside, he⟩⟩ := hn.entry hu
    · have := hn'.caller (himp _ _ (.inl hside) hc)
      rw [hside, he]
      exact this
    · have := hn'.callee (himp _ _ (.inr hside) hc)
      rw [hside, he]
      exact this
  apply Option.ext
  intro entry
  exact ⟨half h h' (fun id call hside => (hsame id call hside).mp) entry,
    half h' h (fun id call hside => (hsame id call hside).mpr) entry⟩

/-- What `removeUser` reports about a call of the user. -/
def disconnectEvent (id : Bytes) (call : Call Bytes) (x : Bytes) : CallDisconnectEvent where
  callId := id
  peer := call.other x
  disconnectedState :=
    if call.accepted then .inCall else if x = call.caller then .calling else .ringing

theorem removeUser_reports (h : Consistent m) {id x : Bytes} {call : Call Bytes}
    (hc : h.registry.calls id = some call) (hx : call.Involves x) :
    (m.removeUser x).1 = some (disconnectEvent id call x) := by
  have hc' := (registry_calls_eq_some h).mp hc
  rcases hx with rfl | rfl
  · rw [removeUser_caller h hc']
    simp [disconnectEvent, Call.other]
  · have hne : call.callee ≠ call.caller := Ne.symm (h.registry.distinct hc)
    rw [removeUser_callee h hc']
    simp [disconnectEvent, Call.other, hne]

/-- **`CallManager` is a registry of disjoint calls.**  After any run of operations, every operation
succeeds exactly when the registry has a step for it, leads to the registry that step leads to, and
otherwise leaves both maps as they are; a user whose calls do not change keeps the same entry; and
`removeUser` reports the call it takes out. -/
theorem operations_simulate_registry (ops : List CallOperation) (hops : ∀ op ∈ ops, op.Admissible)
    (op : CallOperation) (hop : op.Admissible) :
    let m := CallManager.empty.applyAll ops
    ∃ (h : Consistent m) (h' : Consistent (op.apply m)),
      (op.succeeds m = true ↔ ∃ r', CallRegistry.Step h.registry op r') ∧
      (∀ r', CallRegistry.Step h.registry op r' → h'.registry = r') ∧
      (op.succeeds m = false → op.apply m = m) ∧
      (∀ u, (∀ id call, call.Involves u →
          (h.registry.calls id = some call ↔ h'.registry.calls id = some call)) →
        (op.apply m).users[u]? = m.users[u]?) ∧
      (∀ x id call, h.registry.calls id = some call → call.Involves x →
        (m.removeUser x).1 = some (disconnectEvent id call x)) := by
  intro m
  have h : Consistent m := Consistent.empty.applyAll hops
  have hfails : (¬ ∃ r', CallRegistry.Step h.registry op r') →
      op.succeeds m = false ∧ op.apply m = m :=
    fun hno => fails_of_no_step h hop fun r' hstep => hno ⟨r', hstep⟩
  refine ⟨h, h.apply hop, ⟨fun hs => ?_, ?_⟩, ?_, fun hs => ?_, fun u hu => ?_,
    fun x id call hc hx => removeUser_reports h hc hx⟩
  · by_contra hno
    rw [(hfails hno).1] at hs
    exact absurd hs (by decide)
  · rintro ⟨r', hstep⟩
    exact (takes_of_step h hstep).1
  · intro r' hstep
    obtain ⟨-, h', hr⟩ := takes_of_step h hstep
    exact hr
  · refine (hfails ?_).2
    rintro ⟨r', hstep⟩
    rw [(takes_of_step h hstep).1] at hs
    exact absurd hs (by decide)
  · refine (users_congr h (h.apply hop) fun id call hside => ?_).symm
    have := hu id call.toCall hside
    rwa [registry_calls_eq_some h, registry_calls_eq_some (h.apply hop)] at this

/-- With `alice` calling `bob` under `c1`, the hypotheses of the simulation hold and `bob` may
accept. -/
theorem registry_step_after_invite :
    (CallOperation.acceptCall (ascii "bob") (ascii "alice") (ascii "c1")).succeeds
        (CallManager.empty.applyAll [.startCall (ascii "alice") (ascii "bob") (ascii "c1")]) = true ∧
      ∃ (h : Consistent
          (CallManager.empty.applyAll [.startCall (ascii "alice") (ascii "bob") (ascii "c1")]))
        (r' : CallRegistry Bytes Bytes),
        CallRegistry.Step h.registry
          (.acceptCall (ascii "bob") (ascii "alice") (ascii "c1")) r' := by
  have hsucceeds : (CallOperation.acceptCall (ascii "bob") (ascii "alice") (ascii "c1")).succeeds
      (CallManager.empty.applyAll [.startCall (ascii "alice") (ascii "bob") (ascii "c1")]) = true := by
    decide +kernel
  obtain ⟨h, -, hiff, -⟩ := operations_simulate_registry
    [.startCall (ascii "alice") (ascii "bob") (ascii "c1")] (by decide)
    (.acceptCall (ascii "bob") (ascii "alice") (ascii "c1")) trivial
  obtain ⟨r', hstep⟩ := hiff.mp hsucceeds
  exact ⟨hsucceeds, h, r', hstep⟩

end CallManager

end ChatService
