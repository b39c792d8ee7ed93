import ChatService.Server.CallConsistency
import ChatService.Server.Identity

/-!
# Users in calls are online

Handlers of different connections interleave action by action.  `CallsPresent` ties the calls to the online
map, with the phases of the handlers that are under way: both participants of a call are online through a
connection that is not inside the second half of a logout; the callee of a pending call may be missing as
long as the inviting handler has its second look-up before it (`Awaited`).

The second look-up is the one action that can break this: it takes the callee for present although the callee's
logout is already past its `removeUser`.  `LooksPastLogout` is this step; all other actions keep it, together with
`Identity` (`server_keeps`), so in every run without such a step the users in calls are online whenever no handler is
in progress.
-/

namespace ChatService

open AtomicProgram

/-! ### Calls -/

/-- `u` is online through a connection that is not inside the second half of a logout. -/
def Present (s : ServerState) (P : Conn → Phase) (u : Bytes) : Prop :=
  ∃ c, s.userManager.users[u]? = some c ∧ (P c).leaving = false

/-- The call is pending, and the handler that started it has its second look-up before it. -/
def Awaited (s : ServerState) (P : Conn → Phase) (id : Bytes) (call : CallRecord) : Prop :=
  call.accepted = false ∧
    ∃ c, s.userManager.users[call.caller]? = some c ∧
      P c = .inviting call.caller call.callee id

structure CallsPresent (s : ServerState) (P : Conn → Phase) : Prop where
  consistent : s.callManager.Consistent
  caller : ∀ {id : Bytes} {call : CallRecord}, s.callManager.calls[id]? = some call →
    Present s P call.caller
  callee : ∀ {id : Bytes} {call : CallRecord}, s.callManager.calls[id]? = some call →
    Present s P call.callee ∨ Awaited s P id call

/-- The invariant of the server: names, registrations and calls. -/
structure InOrder (s : ServerState) (P : Conn → Phase) : Prop where
  identity : Identity s P
  calls : CallsPresent s P

/-- The second look-up of an invite finds the callee's connection, although the handler of that
connection has already taken the callee's call out of the manager (`removeUser`) and not yet the callee
out of the online map (`logout`), and the invited call is still pending. -/
def LooksPastLogout (s : ServerState) (P : Conn → Phase) (t : Conn) (op : Op) : Prop :=
  ∃ caller callee callId c, op = .userFind callee ∧ P t = .inviting caller callee callId ∧
    s.userManager.users[callee]? = some c ∧ (P c).leaving = true ∧
    s.callManager.calls[callId]? = some ⟨caller, callee, false⟩

namespace InOrder

variable {s s' : ServerState} {P : Conn → Phase} {t : Conn}

/-- Only the online map, the names of the sessions and the calls matter. -/
theorem congr (h : InOrder s P) (husers : s'.userManager = s.userManager)
    (hnames : ∀ c, (s'.connections c).username = (s.connections c).username)
    (hcalls : s'.callManager = s.callManager) : InOrder s' P := by
  refine ⟨h.identity.congr husers hnames, ⟨?_, ?_, ?_⟩⟩
  · rw [hcalls]
    exact h.calls.consistent
  · intro id call hid
    rw [hcalls] at hid
    rw [Present, husers]
    exact h.calls.caller hid
  · intro id call hid
    rw [hcalls] at hid
    rw [Present, Awaited, husers]
    exact h.calls.callee hid

/-- Fewer calls are in order as well. -/
theorem of_fewer_calls (h : InOrder s P) {m : CallManager} (hm : m.Consistent)
    (hsub : ∀ (id : Bytes) (call : CallRecord), m.calls[id]? = some call →
      s.callManager.calls[id]? = some call) :
    InOrder { s with callManager := m } P := by
  refine ⟨h.identity.congr rfl fun _ => rfl, ⟨hm, ?_, ?_⟩⟩
  · intro id call hid
    exact h.calls.caller (hsub id call hid)
  · intro id call hid
    exact h.calls.callee (hsub id call hid)

end InOrder

/-! ### What becomes of the participants when one thread moves -/

section Moves

variable {s s' : ServerState} {P : Conn → Phase} {t : Conn} {phase : Phase}

/-- A present user stays present when the acting thread neither takes the registration away nor begins
to leave. -/
theorem Present.move {u : Bytes} (h : Present s P u)
    (hother : ∀ c, c ≠ t → s.userManager.users[u]? = some c → s'.userManager.users[u]? = some c)
    (hself : s.userManager.users[u]? = some t → (P t).leaving = false →
      s'.userManager.users[u]? = some t ∧ phase.leaving = false) :
    Present s' (Function.update P t phase) u := by
  obtain ⟨c, hu, hstays⟩ := h
  by_cases hc : c = t
  · subst hc
    obtain ⟨hu', hphase⟩ := hself hu hstays
    exact ⟨c, hu', by rwa [Function.update_self]⟩
  · exact ⟨c, hother c hc hu, by rwa [Function.update_of_ne hc]⟩

/-- An awaited callee stays awaited when the thread that moves is not the inviting one. -/
theorem Awaited.move {id : Bytes} {call : CallRecord} (h : Awaited s P id call)
    (hother : ∀ c, c ≠ t → s.userManager.users[call.caller]? = some c →
      s'.userManager.users[call.caller]? = some c)
    (hself : P t ≠ .inviting call.caller call.callee id) :
    Awaited s' (Function.update P t phase) id call := by
  obtain ⟨hpending, c, hu, hphase⟩ := h
  have hc : c ≠ t := by
    rintro rfl
    exact hself hphase
  exact ⟨hpending, c, hother c hc hu, by rwa [Function.update_of_ne hc]⟩

/-- The calls stay in order when thread `t` moves to `phase` and is not inviting. -/
theorem CallsPresent.move (h : CallsPresent s P) (hcalls : s'.callManager = s.callManager)
    (hother : ∀ (u : Bytes) (c : Conn), c ≠ t → s.userManager.users[u]? = some c →
      s'.userManager.users[u]? = some c)
    (hself : ∀ u : Bytes, s.userManager.users[u]? = some t → (P t).leaving = false →
      s'.userManager.users[u]? = some t ∧ phase.leaving = false)
    (hinviting : ∀ a b id, P t ≠ .inviting a b id) :
    CallsPresent s' (Function.update P t phase) := by
  refine ⟨hcalls ▸ h.consistent, ?_, ?_⟩
  · intro id call hid
    rw [hcalls] at hid
    exact (h.caller hid).move (hother _) (hself _)
  · intro id call hid
    rw [hcalls] at hid
    rcases h.callee hid with hpresent | hawaited
    · exact .inl (hpresent.move (hother _) (hself _))
    · exact .inr (hawaited.move (hother _) (hinviting _ _ _))

end Moves

/-! ### Each action -/

section Actions

variable {s : ServerState} {P : Conn → Phase} {t : Conn}

/-- A handler reads the name of its session. -/
theorem InOrder.username (h : InOrder s P) (hquiet : P t = .quiet) :
    InOrder s (Function.update P t
      (if (s.connections t).username = [] then .anonymous else .acting (s.connections t).username)) := by
  refine ⟨h.identity.username hquiet, h.calls.move rfl (fun _ _ _ hu => hu) ?_ (by simp [hquiet])⟩
  intro u hu _
  refine ⟨hu, ?_⟩
  split_ifs <;> rfl

/-- A login registers the name, … -/
theorem InOrder.userLogin (h : InOrder s P) (hanonymous : P t = .anonymous) {u : Bytes}
    (hvalid : isValidName u = true) (hfree : s.userManager.users[u]? = none) :
    InOrder { s with userManager := { users := s.userManager.users.insert u t } }
      (Function.update P t (.loggingIn u)) := by
  refine ⟨h.identity.userLogin hanonymous hvalid hfree, h.calls.move rfl ?_ ?_ (by simp [hanonymous])⟩
  · intro v c hc hv
    exact (UserManager.users_insert_iff hfree v hc).mpr hv
  · intro v hv _
    exact absurd hv (h.identity.not_registered hanonymous v)

/-- … and then names the session. -/
theorem InOrder.setUsername (h : InOrder s P) {u : Bytes} (hlogging : P t = .loggingIn u) :
    InOrder (s.withUsername t u) (Function.update P t .quiet) :=
  ⟨h.identity.setUsername hlogging,
    h.calls.move rfl (fun _ _ _ hu => hu) (fun v hv _ => ⟨hv, rfl⟩) (by simp [hlogging])⟩

/-- A logout takes the user out of the user's call, … -/
theorem InOrder.removeUser (h : InOrder s P) {u : Bytes} (hacting : P t = .acting u) :
    InOrder { s with callManager := (s.callManager.removeUser u).2 }
      (Function.update P t (.removing u)) := by
  have hat := h.identity.each t
  rw [hacting] at hat
  -- the calls that remain are calls from before, and not of this user
  have hsub : ∀ {id : Bytes} {call : CallRecord},
      (s.callManager.removeUser u).2.calls[id]? = some call →
        s.callManager.calls[id]? = some call ∧ u ≠ call.caller ∧ u ≠ call.callee :=
    fun hid => h.calls.consistent.calls_removeUser hid
  have hself : ∀ {v : Bytes}, u ≠ v → ¬ s.userManager.users[v]? = some t :=
    fun hv ht => hv (hat.unique rfl ht).symm
  refine ⟨h.identity.goes_on (u := u) (by rw [hacting]; rfl) (by simp [hacting]) rfl (fun _ => rfl)
    rfl (by simp), ⟨(CallManager.takesOut_removeUser h.calls.consistent u).consistent h.calls.consistent, ?_, ?_⟩⟩
  · intro id call hid
    obtain ⟨hold, hne, -⟩ := hsub hid
    exact (h.calls.caller hold).move (fun _ _ hc => hc) fun ht _ => absurd ht (hself hne)
  · intro id call hid
    obtain ⟨hold, -, hne⟩ := hsub hid
    rcases h.calls.callee hold with hpresent | hawaited
    · exact .inl (hpresent.move (fun _ _ hc => hc) fun ht _ => absurd ht (hself hne))
    · exact .inr (hawaited.move (fun _ _ hc => hc) (by simp [hacting]))

/-- … the user's room memberships, … -/
theorem InOrder.leaveAll (h : InOrder s P) {u : Bytes} (hremoving : P t = .removing u)
    (rooms : RoomManager) :
    InOrder { s with roomManager := rooms } (Function.update P t (.swept u)) := by
  refine ⟨h.identity.goes_on (u := u) (by rw [hremoving]; rfl) (by simp [hremoving]) rfl
    (fun _ => rfl) rfl (by simp),
    h.calls.move rfl (fun _ _ _ hc => hc) (fun _ _ hstays => ?_) (by simp [hremoving])⟩
  rw [hremoving] at hstays
  exact absurd hstays (by simp [Phase.leaving])

/-- … the user's registration, … -/
theorem InOrder.userLogout (h : InOrder s P) {u : Bytes} (hswept : P t = .swept u) :
    InOrder { s with userManager := s.userManager.logout u t } (Function.update P t (.left u)) := by
  refine ⟨h.identity.userLogout hswept, h.calls.move rfl ?_ ?_ (by simp [hswept])⟩
  · intro v c hc hv
    exact (UserManager.users_logout_iff _ u v hc).mpr hv
  · intro v hv hstays
    rw [hswept] at hstays
    exact absurd hstays (by simp [Phase.leaving])

/-- … and last the name of the session. -/
theorem InOrder.clearUsername (h : InOrder s P) {u : Bytes} (hleft : P t = .left u) :
    InOrder (s.withUsername t []) (Function.update P t .quiet) := by
  refine ⟨h.identity.clearUsername hleft,
    h.calls.move rfl (fun _ _ _ hc => hc) (fun v hv _ => ⟨hv, rfl⟩) (by simp [hleft])⟩

/-! #### Calls -/

/-- A new call: the caller acts, and the callee is awaited. -/
theorem InOrder.startCall (h : InOrder s P) {a b id : Bytes} (hacting : P t = .acting a)
    (hab : a ≠ b) (hok : (s.callManager.startCall a b id).1 = none) :
    InOrder { s with callManager := (s.callManager.startCall a b id).2 }
      (Function.update P t (.inviting a b id)) := by
  have hat := h.identity.each t
  rw [hacting] at hat
  have honline : s.userManager.users[a]? = some t := hat.registered rfl (by simp)
  have hpresent : Present s (Function.update P t (.inviting a b id)) a :=
    ⟨t, honline, by simp [Phase.leaving]⟩
  have hold : ∀ {i : Bytes} {call : CallRecord},
      (s.callManager.startCall a b id).2.calls[i]? = some call →
        (i = id ∧ call = ⟨a, b, false⟩) ∨ s.callManager.calls[i]? = some call := by
    intro i call hi
    rw [CallManager.startCall_eq] at hi hok
    split_ifs at hi hok
    exact (Tables.getElem?_insert_eq_some.mp hi).imp (fun h => ⟨h.1.symm, h.2.symm⟩) And.right
  refine ⟨h.identity.goes_on (u := a) (by rw [hacting]; rfl) (by simp [hacting]) rfl (fun _ => rfl)
    rfl (by simp), ⟨h.calls.consistent.startCall hab id, ?_, ?_⟩⟩
  · intro i call hi
    rcases hold hi with ⟨-, rfl⟩ | hi'
    · exact hpresent
    · exact (h.calls.caller hi').move (fun _ _ hc => hc) fun hc _ => ⟨hc, rfl⟩
  · intro i call hi
    rcases hold hi with ⟨rfl, rfl⟩ | hi'
    · exact .inr ⟨rfl, t, honline, by simp⟩
    · rcases h.calls.callee hi' with hpresent | hawaited
      · exact .inl (hpresent.move (fun _ _ hc => hc) fun hc _ => ⟨hc, rfl⟩)
      · exact .inr (hawaited.move (fun _ _ hc => hc) (by simp [hacting]))

/-- The second look-up finds the callee: unless it looks past a logout, the callee is present. -/
theorem InOrder.found (h : InOrder s P) {a b id : Bytes} {c : Conn}
    (hinviting : P t = .inviting a b id) (hfound : s.userManager.users[b]? = some c)
    (hside : ¬ LooksPastLogout s P t (.userFind b)) :
    InOrder s (Function.update P t (.acting a)) := by
  refine ⟨h.identity.change_phase (u := a) (by rw [hinviting]; rfl) (by simp [hinviting]) rfl
    (by simp), ⟨h.calls.consistent, ?_, ?_⟩⟩
  · intro i call hi
    exact (h.calls.caller hi).move (fun _ _ hc => hc) fun hc _ => ⟨hc, rfl⟩
  · intro i call hi
    by_cases hthis : P t = .inviting call.caller call.callee i ∧ call.accepted = false
    · obtain ⟨rfl, rfl, rfl⟩ : a = call.caller ∧ b = call.callee ∧ id = i := by
        simpa [hinviting] using hthis.1
      have hpresent : Present s P call.callee := by
        refine ⟨c, hfound, ?_⟩
        by_contra hleaving
        refine hside ⟨call.caller, call.callee, id, c, rfl, hinviting, hfound,
          by simpa using hleaving, ?_⟩
        rw [hi, ← hthis.2]
      exact .inl (hpresent.move (fun _ _ hc => hc) fun hc _ => ⟨hc, rfl⟩)
    · rcases h.calls.callee hi with hpresent | hawaited
      · exact .inl (hpresent.move (fun _ _ hc => hc) fun hc _ => ⟨hc, rfl⟩)
      · exact .inr (hawaited.move (fun _ _ hc => hc) fun hp => hthis ⟨hp, hawaited.1⟩)

/-- An invite whose callee is gone takes the call back, and so does a caller who changes his mind. -/
theorem InOrder.cancelCall (h : InOrder s P) {a b id : Bytes}
    (hphase : P t = .acting a ∨ P t = .inviting a b id) :
    InOrder { s with callManager := (s.callManager.cancelCall a b id).2 }
      (Function.update P t (.acting a)) := by
  have hnamed : (P t).user? = some a := by rcases hphase with hp | hp <;> rw [hp] <;> rfl
  have hstays : P t ≠ .left a := by rcases hphase with hp | hp <;> rw [hp] <;> simp
  have hm := h.calls.consistent
  -- the call that was awaited by this very handler, if any, is the one that goes
  have hsub : ∀ {i : Bytes} {call : CallRecord},
      (s.callManager.cancelCall a b id).2.calls[i]? = some call →
        s.callManager.calls[i]? = some call ∧ ¬ (i = id ∧ call = ⟨a, b, false⟩) := by
    intro i call hi
    rw [CallManager.cancelCall_eq hm] at hi
    split_ifs at hi with hid
    · obtain ⟨hold, hne⟩ := CallManager.calls_without hi
      exact ⟨hold, fun hthis => hne hthis.1⟩
    · refine ⟨hi, ?_⟩
      rintro ⟨rfl, rfl⟩
      exact hid hi
  have hconsistent : (s.callManager.cancelCall a b id).2.Consistent :=
    hm.apply (show CallOperation.Admissible (.cancelCall a b id) from trivial)
  refine ⟨h.identity.goes_on hnamed hstays rfl (fun _ => rfl) rfl (by simp),
    ⟨hconsistent, ?_, ?_⟩⟩
  · intro i call hi
    exact (h.calls.caller (hsub hi).1).move (fun _ _ hc => hc) fun hc _ => ⟨hc, rfl⟩
  · intro i call hi
    obtain ⟨hold, hnot⟩ := hsub hi
    rcases h.calls.callee hold with hpresent | hawaited
    · exact .inl (hpresent.move (fun _ _ hc => hc) fun hc _ => ⟨hc, rfl⟩)
    · refine .inr (hawaited.move (fun _ _ hc => hc) fun hp => hnot ?_)
      obtain ⟨ha, hb, hid⟩ : a = call.caller ∧ b = call.callee ∧ id = i := by
        rcases hphase with hphase | hphase
        · simp [hphase] at hp
        · simpa [hphase] using hp
      refine ⟨hid.symm, ?_⟩
      rw [ha, hb, ← hawaited.1]

/-- The callee who accepts is present. -/
theorem InOrder.acceptCall (h : InOrder s P) {b : Bytes} (hacting : P t = .acting b)
    (a id : Bytes) : InOrder { s with callManager := (s.callManager.acceptCall b a id).2 } P := by
  have hat := h.identity.each t
  rw [hacting] at hat
  have hpresent : Present s P b := ⟨t, hat.registered rfl (by simp), by rw [hacting]; rfl⟩
  have hm := h.calls.consistent
  have hconsistent : (s.callManager.acceptCall b a id).2.Consistent :=
    hm.apply (show CallOperation.Admissible (.acceptCall b a id) from trivial)
  rw [CallManager.acceptCall_eq hm] at hconsistent ⊢
  split_ifs at hconsistent ⊢ with hid
  · have hold : ∀ {i : Bytes} {call : CallRecord},
        (s.callManager.withAccepted a b id).calls[i]? = some call →
          call = ⟨a, b, true⟩ ∨ s.callManager.calls[i]? = some call := by
      intro i call hi
      exact (Tables.getElem?_insert_eq_some.mp hi).imp (fun h => h.2.symm) And.right
    have hcaller : Present s P a := h.calls.caller hid
    refine ⟨h.identity.congr rfl fun _ => rfl, ⟨hconsistent, ?_, ?_⟩⟩
    · intro i call hi
      rcases hold hi with rfl | hi'
      · exact hcaller
      · exact h.calls.caller hi'
    · intro i call hi
      rcases hold hi with rfl | hi'
      · exact .inl hpresent
      · exact h.calls.callee hi'
  · exact h

/-- Taking a call out, for whatever reason, leaves the others as they are. -/
theorem InOrder.takesOut (h : InOrder s P) {m : CallManager}
    (hm : CallManager.TakesOut s.callManager m) : InOrder { s with callManager := m } P :=
  h.of_fewer_calls (hm.consistent h.calls.consistent) fun _ _ hid => hm.calls hid

/-! #### Answers decide -/

theorem InOrder.login (h : InOrder s P) (hanonymous : P t = .anonymous) (u : Bytes) :
    InOrder { s with userManager := (s.userManager.login u t).2 }
      (Function.update P t ((P t).next (.userLogin u t) (s.userManager.login u t).1)) := by
  cases hresult : (s.userManager.login u t).1 with
  | none =>
    obtain ⟨hvalid, hfree, heq⟩ := UserManager.login_eq_none hresult
    rw [heq]
    exact h.userLogin hanonymous hvalid hfree
  | some error =>
    rw [UserManager.login_eq_some hresult]
    show InOrder s (Function.update P t (P t))
    rwa [Function.update_eq_self]

theorem InOrder.start (h : InOrder s P) {a b id : Bytes} (hacting : P t = .acting a)
    (hab : a ≠ b) :
    InOrder { s with callManager := (s.callManager.startCall a b id).2 }
      (Function.update P t ((P t).next (.startCall a b id) (s.callManager.startCall a b id).1)) := by
  cases hresult : (s.callManager.startCall a b id).1 with
  | none => exact h.startCall hacting hab hresult
  | some reason =>
    rw [CallManager.startCall_eq_some hresult]
    show InOrder s (Function.update P t (P t))
    rwa [Function.update_eq_self]

/-- Only the look-up of an inviting handler matters. -/
theorem InOrder.userFind (h : InOrder s P) {u : Bytes}
    (hallowed : Op.AllowedIn t (P t) (.userFind u))
    (hside : ¬ LooksPastLogout s P t (.userFind u)) :
    InOrder s (Function.update P t ((P t).next (.userFind u) (s.userManager.find u))) := by
  by_cases hinviting : ∃ a b id, P t = .inviting a b id
  · obtain ⟨a, b, id, hp⟩ := hinviting
    obtain rfl : u = b := hallowed a b id hp
    cases hfound : s.userManager.find u with
    | some c =>
      rw [hp]
      exact h.found hp hfound hside
    | none =>
      show InOrder s (Function.update P t (P t))
      rwa [Function.update_eq_self]
  · have hsame : (P t).next (.userFind u) (s.userManager.find u) = P t := by
      cases s.userManager.find u with
      | none => rfl
      | some c =>
        cases hp : P t with
        | inviting a b id => exact absurd ⟨a, b, id, hp⟩ hinviting
        | _ => rfl
    rwa [hsame, Function.update_eq_self]

end Actions

/-! ### The whole server -/

/-- **Every action but one keeps the invariant.** -/
theorem server_keeps :
    discipline.Keeps server (fun s P t op => ¬ LooksPastLogout s P t op) InOrder where
  enter := by
    intro s P t i h _ _
    refine h.congr ?_ (fun c => ?_) ?_
    · cases i <;> rfl
    · cases i with
      | connected => exact ServerState.username_withTcpState ..
      | reaction r => rfl
      | disconnected => exact ServerState.username_withTcpState ..
    · cases i <;> rfl
  rest := by
    intro s P t h hrest
    refine ⟨h.identity.move_phase ((h.identity.each t).rest hrest),
      h.calls.move rfl (fun _ _ _ hc => hc) (fun _ hc _ => ⟨hc, rfl⟩) ?_⟩
    rintro a b id hinviting
    rcases hrest with hp | hp | ⟨u, hp⟩ <;> rw [hp] at hinviting <;> simp at hinviting
  act := by
    intro s P t op env h hallowed hside
    -- most actions leave the phase as it is
    have stays : ∀ {s' : ServerState}, InOrder s' P → InOrder s' (Function.update P t (P t)) := by
      intro s' h'
      rwa [Function.update_eq_self]
    cases op with
    | username connection =>
      obtain ⟨rfl, hquiet⟩ := hallowed
      exact h.username hquiet
    | setUsername connection u =>
      obtain ⟨rfl, hlogging⟩ := hallowed
      exact h.setUsername hlogging
    | clearUsername connection =>
      obtain ⟨rfl, u, hleft⟩ := hallowed
      exact h.clearUsername hleft
    | userLogin u connection =>
      obtain ⟨rfl, hanonymous⟩ := hallowed
      exact h.login hanonymous u
    | userLogout u connection =>
      obtain ⟨rfl, hswept⟩ := hallowed
      exact h.userLogout hswept
    | userFind u => exact h.userFind hallowed hside
    | leaveAll u => exact h.leaveAll hallowed _
    | startCall a b id =>
      obtain ⟨hacting, hab⟩ := hallowed
      exact h.start hacting hab
    | acceptCall b a id => exact stays (h.acceptCall hallowed a id)
    | rejectCall b a id =>
      exact stays (h.takesOut (CallManager.takesOut_rejectCall h.calls.consistent b a id))
    | cancelCall a b id => exact h.cancelCall hallowed
    | timeoutCall a b id =>
      exact stays (h.takesOut (CallManager.takesOut_cancelCall h.calls.consistent a b id))
    | hangupCall x y id =>
      exact stays (h.takesOut (CallManager.takesOut_hangupCall h.calls.consistent x y id))
    | removeUser u => exact h.removeUser hallowed
    | forceClose connection =>
      show InOrder (s.forceClose connection) (Function.update P t (P t))
      rw [ServerState.forceClose_eq]
      exact stays (h.congr rfl (s.username_withTcpState _ _) rfl)
    | _ => exact stays (h.congr rfl (fun _ => rfl) rfl)

/-- Nobody is online at the start, and nobody is in a call. -/
theorem InOrder.initial (storage : ChatStorage) :
    InOrder (.initial storage) fun _ => discipline.resting := by
  have hnocall : ∀ {id : Bytes} {call : CallRecord},
      (ServerState.initial storage).callManager.calls[id]? ≠ some call := by
    intro id call hid
    simp [ServerState.initial, CallManager.empty] at hid
  exact ⟨Identity.initial storage, ⟨CallManager.Consistent.empty, fun hid => absurd hid hnocall,
    fun hid => absurd hid hnocall⟩⟩

/-- The runs in which no invite looks past a logout. -/
abbrev NeverPastLogout : Config Conn Input Op Op.Response ServerState → Conn → Prop :=
  discipline.Meets fun s P t op => ¬ LooksPastLogout s P t op

/-- What such a run reaches is in order. -/
theorem inOrder_of_reachable {storage : ChatStorage} {c : Config Conn Input Op Op.Response ServerState}
    (h : Reachable server NeverPastLogout (.initial storage) c) :
    InOrder c.shared (discipline.phases c) :=
  (Typestate.invariant server_follows server_keeps (.initial storage) h).1

/-- A handler that runs alone looks past no logout, since nobody else is in one. -/
theorem neverPastLogout_of_alone {c : Config Conn Input Op Op.Response ServerState} {t : Conn}
    (halone : ∀ t', t' ≠ t → c.threads t' = none) : NeverPastLogout c t := by
  rintro i done op next - ⟨a, b, id, connection, -, hinviting, -, hleaving, -⟩
  by_cases hsame : connection = t
  · rw [hsame, hinviting] at hleaving
    exact absurd hleaving (by simp [Phase.leaving])
  · rw [Typestate.phases, halone connection hsame] at hleaving
    exact absurd hleaving (by simp [Phase.leaving, discipline])

/-- Between whole handlers everything is in order. -/
theorem Serial.inOrder {storage : ChatStorage} {s : ServerState}
    (h : Serial server (.initial storage) s) : InOrder s fun _ => .quiet := by
  have hrun : Reachable server NeverPastLogout (.initial storage) (.quiet s) :=
    h.reachable fun c t => neverPastLogout_of_alone
  exact inOrder_of_reachable hrun

section Quiet

variable {s : ServerState}

/-- Between whole handlers, the session of a registered connection has the registered name, … -/
theorem InOrder.username_eq (h : InOrder s fun _ => .quiet) {u : Bytes} {c : Conn}
    (hu : s.userManager.users[u]? = some c) : (s.connections c).username = u :=
  ((h.identity.each c).session hu).resolve_right (by simp)

/-- … a session that has a name is registered under it, … -/
theorem InOrder.registered (h : InOrder s fun _ => .quiet) {c : Conn}
    (hne : (s.connections c).username ≠ []) :
    s.userManager.users[(s.connections c).username]? = some c :=
  ((h.identity.each c).online hne).resolve_right (by simp)

/-- … and both participants of a call are online. -/
theorem InOrder.participant_online (h : InOrder s fun _ => .quiet) {id : Bytes} {call : CallRecord}
    (hid : s.callManager.calls[id]? = some call) {u : Bytes} (hu : u = call.caller ∨ u = call.callee) :
    ∃ c, s.userManager.users[u]? = some c := by
  rcases hu with rfl | rfl
  · obtain ⟨c, hc, -⟩ := h.calls.caller hid
    exact ⟨c, hc⟩
  · rcases h.calls.callee hid with ⟨c, hc, -⟩ | ⟨-, c, -, hinviting⟩
    · exact ⟨c, hc⟩
    · exact absurd hinviting (by simp)

end Quiet

/-- **Users in calls are online** whenever no handler is in progress, in every run that never looks past
a logout. -/
theorem users_in_calls_are_online (storage : ChatStorage)
    {c : Config Conn Input Op Op.Response ServerState}
    (hrun : Reachable server NeverPastLogout (.initial storage) c) (hquiescent : c.Quiescent)
    {u : Bytes} {entry : UserCall} (hu : c.shared.callManager.users[u]? = some entry) :
    ∃ connection, c.shared.userManager.users[u]? = some connection := by
  have h := inOrder_of_reachable hrun
  rw [discipline.phases_of_quiescent hquiescent] at h
  obtain ⟨call, hid, hside⟩ := h.calls.consistent.user hu
  exact h.participant_online hid hside

/-! ### A run that looks past a logout -/

section Race

/-- The request of the run. -/
def inviteRequest (target callId : String) : Input :=
  .request (((((∅ : JsonObject).insert (ascii "type") (ascii "call_invite")).insert (ascii "to")
    (ascii target)).insert (ascii "call_id") (ascii callId)).insert (ascii "media") (ascii "video"))

/-- A run without a race: alice invites bob, and bob, who is ringing, is online. -/
theorem bob_is_online :
    ∃ connection, (serve1 ⟨0, true⟩ 1 (inviteRequest "bob" "c1") aliceAndBob).userManager.users[
      ascii "bob"]? = some connection := by
  have hserial : Serial server (.initial .empty)
      (serve1 ⟨0, true⟩ 1 (inviteRequest "bob" "c1") aliceAndBob) :=
    Serial.serve1 aliceAndBob_reachable (admits_request (by decide +kernel) _)
  have hrun : Reachable server NeverPastLogout (.initial .empty)
      (.quiet (serve1 ⟨0, true⟩ 1 (inviteRequest "bob" "c1") aliceAndBob)) :=
    hserial.reachable fun c t => neverPastLogout_of_alone
  have hringing : (serve1 ⟨0, true⟩ 1 (inviteRequest "bob" "c1") aliceAndBob).callManager.users[
      ascii "bob"]? = some ⟨.ringing, ascii "c1", ascii "alice"⟩ := by decide +kernel
  exact users_in_calls_are_online .empty hrun (fun _ => rfl) hringing

/-- Bob's logout pauses after `removeUser`, … -/
def bobLeaving : Config Conn Input Op Op.Response ServerState :=
  ((Config.quiet aliceAndBob).begin server 2 logoutRequest).play server ⟨0, true⟩ [2, 2]

/-- … alice's invite runs, and bob's logout ends. -/
def bobGone : Config Conn Input Op Op.Response ServerState :=
  (bobLeaving.begin server 1 (inviteRequest "bob" "c1")).play server ⟨0, true⟩
    [1, 1, 1, 1, 1, 1, 2, 2, 2, 2, 2]

/-- Nobody is in a handler, and bob is offline and ringing. -/
theorem logout_races_invite :
    ∃ c, Reachable server (fun _ _ => True) (.initial .empty) c ∧ c.Quiescent ∧
      c.shared.callManager.users[ascii "bob"]? = some ⟨.ringing, ascii "c1", ascii "alice"⟩ ∧
      c.shared.userManager.users[ascii "bob"]? = none := by
  have hall : ∀ (c : Config Conn Input Op Op.Response ServerState) (t : Conn), True :=
    fun _ _ => trivial
  have hstart : Reachable server (fun _ _ => True) (.initial .empty) (.quiet aliceAndBob) :=
    aliceAndBob_reachable.reachable fun c t _ => hall c t
  have hlogout : server.admits aliceAndBob 2 logoutRequest := admits_request (by decide +kernel) _
  have hleaving : Reachable server (fun _ _ => True) (.initial .empty) bobLeaving :=
    (hstart.begin hall rfl hlogout).play hall _ _
  have hidle : bobLeaving.threads 1 = none := Config.threads_play _ _ (by decide) _
  have hinvite : server.admits bobLeaving.shared 1 (inviteRequest "bob" "c1") :=
    admits_request (by decide +kernel) _
  have hgone : Reachable server (fun _ _ => True) (.initial .empty) bobGone :=
    (hleaving.begin hall hidle hinvite).play hall _ _
  refine ⟨bobGone, hgone, fun t => ?_, by decide +kernel, by decide +kernel⟩
  by_cases hone : t = 1
  · subst hone
    exact Option.isNone_iff_eq_none.mp (by decide +kernel)
  by_cases htwo : t = 2
  · subst htwo
    exact Option.isNone_iff_eq_none.mp (by decide +kernel)
  -- the other connections never begin a handler
  rw [bobGone, Config.threads_play _ _ (by simp [hone, htwo])]
  refine (Function.update_of_ne hone _ _).trans ?_
  rw [bobLeaving, Config.threads_play _ _ (by simp [htwo])]
  exact Function.update_of_ne htwo _ _

end Race

end ChatService
