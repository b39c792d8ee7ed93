import ChatService.Foundation.Histories
import ChatService.Server.Discipline

/-!
# Names and registrations

The name of a user is kept twice, in the user's session and in the online map, and a login and a logout
change the two in separate steps.  `Identity` says how they agree in every state, in the middle of handlers
too, and that every name in the map is valid; all actions of all handlers keep it (`identity_kept`).

So in every reachable state no connection has two names, the session of a connection that is in no handler
has exactly the name under which the connection is registered, and no step takes the registration of
another connection away.
-/

namespace ChatService

open AtomicProgram

/-- What holds of one connection: the names registered for it, the name of its session, its phase. -/
structure IdentityAt (s : ServerState) (c : Conn) (phase : Phase) : Prop where
  session : ∀ {u : Bytes}, s.userManager.users[u]? = some c →
    (s.connections c).username = u ∨ phase = .loggingIn u
  online : (s.connections c).username ≠ [] →
    s.userManager.users[(s.connections c).username]? = some c ∨
      phase = .left (s.connections c).username
  named : ∀ {u : Bytes}, phase.user? = some u → (s.connections c).username = u ∧ u ≠ []
  anonymous : phase = .anonymous → (s.connections c).username = []
  loggingIn : ∀ {u : Bytes}, phase = .loggingIn u →
    (s.connections c).username = [] ∧ s.userManager.users[u]? = some c
  left : ∀ {u : Bytes}, phase = .left u → s.userManager.users[u]? ≠ some c

/-- Every registered name is valid, and every connection is in order. -/
structure Identity (s : ServerState) (P : Conn → Phase) : Prop where
  valid : ∀ {u : Bytes} {c : Conn}, s.userManager.users[u]? = some c → isValidName u = true
  each : ∀ c, IdentityAt s c (P c)

namespace IdentityAt

variable {s s' : ServerState} {c : Conn} {phase : Phase}

/-- Only the names registered for the connection and the name of its session matter. -/
theorem congr (h : IdentityAt s c phase)
    (husers : ∀ u : Bytes, s'.userManager.users[u]? = some c ↔ s.userManager.users[u]? = some c)
    (hname : (s'.connections c).username = (s.connections c).username) : IdentityAt s' c phase where
  session hu := by
    rw [hname]
    exact h.session ((husers _).mp hu)
  online hne := by
    rw [hname] at hne ⊢
    exact (h.online hne).imp_left (husers _).mpr
  named hu := by
    rw [hname]
    exact h.named hu
  anonymous hp := by
    rw [hname]
    exact h.anonymous hp
  loggingIn hp := by
    rw [hname]
    exact ⟨(h.loggingIn hp).1, (husers _).mpr (h.loggingIn hp).2⟩
  left hp hu := h.left hp ((husers _).mp hu)

/-- A handler that acts for `u` runs on the connection registered for `u`, until its logout takes the
registration away. -/
theorem registered (h : IdentityAt s c phase) {u : Bytes} (hu : phase.user? = some u)
    (hleft : phase ≠ .left u) : s.userManager.users[u]? = some c := by
  obtain ⟨hname, hne⟩ := h.named hu
  rw [← hname] at hne hleft ⊢
  exact (h.online hne).resolve_right hleft

/-- The only name registered for a connection whose handler acts for `u` is `u`. -/
theorem unique (h : IdentityAt s c phase) {u v : Bytes} (hu : phase.user? = some u)
    (hv : s.userManager.users[v]? = some c) : v = u := by
  rcases h.session hv with hname | hphase
  · rw [← hname, (h.named hu).1]
  · rw [hphase] at hu
    exact absurd hu (by simp [Phase.user?])

/-- The facts about a session that has a name and a registration do not depend on the phase. -/
theorem change_phase (h : IdentityAt s c phase) {u : Bytes} (hu : phase.user? = some u)
    (hleft : phase ≠ .left u) {phase' : Phase} (hu' : phase'.user? = some u)
    (hleft' : phase' ≠ .left u) : IdentityAt s c phase' := by
  obtain ⟨hname, hne⟩ := h.named hu
  have honline := h.registered hu hleft
  refine ⟨fun hv => .inl (hname.trans (h.unique hu hv).symm), fun _ => .inl (hname ▸ honline), ?_,
    ?_, ?_, ?_⟩
  · intro v hv
    obtain rfl := Option.some.inj (hu'.symm.trans hv)
    exact ⟨hname, hne⟩
  · rintro rfl
    simp [Phase.user?] at hu'
  · rintro v rfl
    simp [Phase.user?] at hu'
  · rintro v rfl
    exact absurd (by simpa [Phase.user?] using hu') (fun hv : v = u => hleft' (hv ▸ rfl))

/-- A resting handler knows nothing, which is less than it knew. -/
theorem rest (h : IdentityAt s c phase) (hrest : discipline.mayRest phase) :
    IdentityAt s c .quiet := by
  have hnot : (∀ u, phase ≠ .loggingIn u) ∧ ∀ u, phase ≠ .left u := by
    rcases hrest with rfl | rfl | ⟨username, rfl⟩ <;> simp
  refine ⟨@fun u hu => .inl ((h.session hu).resolve_right (hnot.1 _)), fun hne =>
    .inl ((h.online hne).resolve_right (hnot.2 _)), ?_, ?_, ?_, ?_⟩ <;>
    simp [Phase.user?]

end IdentityAt

/-! ### What the actions do to names and registrations -/

namespace Identity

variable {s s' : ServerState} {P : Conn → Phase} {t : Conn} {phase : Phase}

/-- Only the online map and the names of the sessions matter. -/
theorem congr (h : Identity s P) (husers : s'.userManager = s.userManager)
    (hnames : ∀ c, (s'.connections c).username = (s.connections c).username) : Identity s' P := by
  refine ⟨fun hu => ?_, fun c => ?_⟩
  · rw [husers] at hu
    exact h.valid hu
  · exact (h.each c).congr (fun u => by rw [husers]) (hnames c)

/-- The other connections stay in order when the acting thread changes nothing of theirs. -/
theorem move (h : Identity s P)
    (hvalid : ∀ {u : Bytes} {c : Conn}, s'.userManager.users[u]? = some c → isValidName u = true)
    (hother : ∀ c, c ≠ t →
      (∀ u : Bytes, s'.userManager.users[u]? = some c ↔ s.userManager.users[u]? = some c) ∧
        (s'.connections c).username = (s.connections c).username)
    (hself : IdentityAt s' t phase) : Identity s' (Function.update P t phase) := by
  refine ⟨hvalid, fun c => ?_⟩
  by_cases hc : c = t
  · subst hc
    rwa [Function.update_self]
  · rw [Function.update_of_ne hc]
    exact (h.each c).congr (hother c hc).1 (hother c hc).2

/-- The same when nothing but the phase changes. -/
theorem move_phase (h : Identity s P) (hself : IdentityAt s t phase) :
    Identity s (Function.update P t phase) :=
  h.move h.valid (fun _ _ => ⟨fun _ => Iff.rfl, rfl⟩) hself

/-- A handler that goes on acting for the same user. -/
theorem change_phase (h : Identity s P) {u : Bytes} (hu : (P t).user? = some u)
    (hleft : P t ≠ .left u) (hu' : phase.user? = some u) (hleft' : phase ≠ .left u) :
    Identity s (Function.update P t phase) :=
  h.move_phase ((h.each t).change_phase hu hleft hu' hleft')

/-- Nothing is registered for a connection that has no name and is not logging in. -/
theorem not_registered (h : Identity s P) (hanonymous : P t = .anonymous) (v : Bytes) :
    s.userManager.users[v]? ≠ some t := by
  intro hv
  have hat := h.each t
  have hname := (hat.session hv).resolve_right (by simp [hanonymous])
  exact ne_nil_of_isValidName (h.valid hv) (hname.symm.trans (hat.anonymous hanonymous))

/-- A handler reads the name of its session. -/
theorem username (h : Identity s P) (hquiet : P t = .quiet) :
    Identity s (Function.update P t
      (if (s.connections t).username = [] then .anonymous else .acting (s.connections t).username)) := by
  have hat := h.each t
  rw [hquiet] at hat
  have hsession : ∀ {u : Bytes}, s.userManager.users[u]? = some t →
      (s.connections t).username = u := fun hu => (hat.session hu).resolve_right (by simp)
  have honline : (s.connections t).username ≠ [] →
      s.userManager.users[(s.connections t).username]? = some t :=
    fun hne => (hat.online hne).resolve_right (by simp)
  apply h.move_phase
  split_ifs with hname
  · exact ⟨@fun _ hu => .inl (hsession hu), fun hne => absurd hname hne, by simp [Phase.user?],
      fun _ => hname, by simp, by simp⟩
  · refine ⟨@fun _ hu => .inl (hsession hu), fun hne => .inl (honline hne), ?_, by simp, by simp,
      by simp⟩
    intro u hu
    obtain rfl : (s.connections t).username = u := by simpa [Phase.user?] using hu
    exact ⟨rfl, hname⟩

/-- A login registers the name, … -/
theorem userLogin (h : Identity s P) (hanonymous : P t = .anonymous) {u : Bytes}
    (hvalid : isValidName u = true) (hfree : s.userManager.users[u]? = none) :
    Identity { s with userManager := { users := s.userManager.users.insert u t } }
      (Function.update P t (.loggingIn u)) := by
  have hname := (h.each t).anonymous hanonymous
  have hnone := h.not_registered hanonymous
  refine h.move ?_ (fun c hc => ⟨fun v => UserManager.users_insert_iff hfree v hc, rfl⟩) ?_
  · intro v c hv
    by_cases huv : u = v
    · exact huv ▸ hvalid
    · exact h.valid ((Tables.getElem?_insert_of_ne huv).symm.trans hv)
  · refine ⟨@fun v hv => ?_, fun hne => absurd hname hne, by simp [Phase.user?], by simp,
      @fun v hv => ?_, by simp⟩
    · by_cases huv : u = v
      · exact .inr (by rw [huv])
      · exact absurd ((Tables.getElem?_insert_of_ne huv).symm.trans hv) (hnone v)
    · obtain rfl : u = v := by simpa using hv
      exact ⟨hname, Tables.getElem?_insert_self ..⟩

/-- … and then names the session. -/
theorem setUsername (h : Identity s P) {u : Bytes} (hlogging : P t = .loggingIn u) :
    Identity (s.withUsername t u) (Function.update P t .quiet) := by
  have hat := h.each t
  rw [hlogging] at hat
  obtain ⟨hname, honline⟩ := hat.loggingIn rfl
  refine h.move h.valid
    (fun c hc => ⟨fun _ => Iff.rfl, ServerState.username_withUsername_of_ne s hc u⟩) ?_
  refine ⟨@fun v hv => ?_, fun _ => ?_, by simp [Phase.user?], by simp, by simp, by simp⟩
  · rw [ServerState.username_withUsername_self]
    have hv' : (s.connections t).username = v ∨ Phase.loggingIn u = .loggingIn v :=
      hat.session hv
    rcases hv' with hv' | hv'
    · exact absurd (hv'.symm.trans hname) (ne_nil_of_isValidName (h.valid hv))
    · exact .inl (by simpa using hv')
  · rw [ServerState.username_withUsername_self]
    exact .inl honline

/-- A logout takes the registration away … -/
theorem userLogout (h : Identity s P) {u : Bytes} (hswept : P t = .swept u) :
    Identity { s with userManager := s.userManager.logout u t }
      (Function.update P t (.left u)) := by
  have hat := h.each t
  rw [hswept] at hat
  have hgone : ∀ v : Bytes, (s.userManager.logout u t).users[v]? ≠ some t := by
    intro v hv
    rw [UserManager.logout_users] at hv
    split_ifs at hv with hown
    exact hown ⟨hat.unique rfl hv, hv⟩
  refine h.move ?_ (fun c hc => ⟨fun v => UserManager.users_logout_iff _ u v hc, rfl⟩) ?_
  · intro v c hv
    by_cases hc : c = t
    · exact absurd (hc ▸ hv) (hgone v)
    · exact h.valid ((UserManager.users_logout_iff _ u v hc).mp hv)
  · obtain ⟨hname, hne⟩ := hat.named rfl
    refine ⟨fun hv => absurd hv (hgone _), fun _ => .inr (by rw [hname]), ?_, by simp, by simp,
      fun _ => hgone _⟩
    intro v hv
    obtain rfl : u = v := by simpa [Phase.user?] using hv
    exact ⟨hname, hne⟩

/-- … and then the name of the session. -/
theorem clearUsername (h : Identity s P) {u : Bytes} (hleft : P t = .left u) :
    Identity (s.withUsername t []) (Function.update P t .quiet) := by
  have hat := h.each t
  rw [hleft] at hat
  have hgone : ∀ v : Bytes, s.userManager.users[v]? ≠ some t := by
    intro v hv
    obtain rfl := hat.unique rfl hv
    exact hat.left rfl hv
  refine h.move h.valid
    (fun c hc => ⟨fun _ => Iff.rfl, ServerState.username_withUsername_of_ne s hc []⟩) ?_
  exact ⟨fun hv => absurd hv (hgone _),
    fun hne => absurd (ServerState.username_withUsername_self s t []) hne, by simp [Phase.user?],
    by simp, by simp, by simp⟩

/-- A login that is tried, whatever comes of it. -/
theorem login (h : Identity s P) (hanonymous : P t = .anonymous) (u : Bytes) :
    Identity { s with userManager := (s.userManager.login u t).2 }
      (Function.update P t ((P t).next (.userLogin u t) (s.userManager.login u t).1)) := by
  cases hresult : (s.userManager.login u t).1 with
  | none =>
    obtain ⟨hvalid, hfree, heq⟩ := UserManager.login_eq_none hresult
    rw [heq]
    exact h.userLogin hanonymous hvalid hfree
  | some error =>
    rw [UserManager.login_eq_some hresult]
    show Identity s (Function.update P t (P t))
    rwa [Function.update_eq_self]

/-- A look-up may end an invite; the handler acts for the same user. -/
theorem userFind (h : Identity s P) (u : Bytes) (found : Option Conn) :
    Identity s (Function.update P t ((P t).next (.userFind u) found)) := by
  by_cases hinviting : ∃ a b id, P t = .inviting a b id
  · obtain ⟨a, b, id, hp⟩ := hinviting
    cases found with
    | some c =>
      have hnext : (P t).next (.userFind u) (some c) = .acting a := by rw [hp]; rfl
      rw [hnext]
      exact h.change_phase (by rw [hp]; rfl) (by simp [hp]) rfl (by simp)
    | none =>
      show Identity s (Function.update P t (P t))
      rwa [Function.update_eq_self]
  · have hsame : (P t).next (.userFind u) found = P t := by
      cases found with
      | none => rfl
      | some c =>
        cases hp : P t with
        | inviting a b id => exact absurd ⟨a, b, id, hp⟩ hinviting
        | _ => rfl
    rwa [hsame, Function.update_eq_self]

/-- Nobody is online at the start. -/
theorem initial (storage : ChatStorage) :
    Identity (.initial storage) fun _ => discipline.resting := by
  have hnobody : ∀ {u : Bytes} {c : Conn},
      (ServerState.initial storage).userManager.users[u]? ≠ some c := by
    intro u c hu
    simp [ServerState.initial, UserManager.empty] at hu
  refine ⟨fun hu => absurd hu hnobody, fun c => ?_⟩
  exact ⟨fun hu => absurd hu hnobody, fun hne => absurd rfl hne, by simp [Phase.user?, discipline],
    by simp [discipline], by simp [discipline], by simp [discipline]⟩

/-- An action that begins or ends a call, or sweeps the rooms, goes on for the same user. -/
theorem goes_on (h : Identity s P) {u : Bytes} (hu : (P t).user? = some u) (hleft : P t ≠ .left u)
    (husers : s'.userManager = s.userManager)
    (hnames : ∀ c, (s'.connections c).username = (s.connections c).username)
    (hu' : phase.user? = some u) (hleft' : phase ≠ .left u) :
    Identity s' (Function.update P t phase) :=
  (h.change_phase hu hleft hu' hleft').congr husers hnames

/-- A call that is tried, whatever comes of it. -/
theorem startCall (h : Identity s P) {a b id : Bytes} (hacting : P t = .acting a) :
    Identity { s with callManager := (s.callManager.startCall a b id).2 }
      (Function.update P t ((P t).next (.startCall a b id) (s.callManager.startCall a b id).1)) := by
  cases hresult : (s.callManager.startCall a b id).1 with
  | none =>
    exact h.goes_on (u := a) (by rw [hacting]; rfl) (by simp [hacting]) rfl (fun _ => rfl) rfl
      (by simp [Phase.next])
  | some reason =>
    show Identity _ (Function.update P t (P t))
    rw [Function.update_eq_self]
    exact h.congr rfl fun _ => rfl

end Identity

/-- **Every action keeps names and registrations in order.** -/
theorem identity_kept : discipline.Keeps server (fun _ _ _ _ => True) Identity where
  enter := by
    intro s P t i h _ _
    refine h.congr ?_ (fun c => ?_)
    · cases i <;> rfl
    · cases i with
      | connected => exact ServerState.username_withTcpState ..
      | reaction r => rfl
      | disconnected => exact ServerState.username_withTcpState ..
  rest := by
    intro s P t h hrest
    exact h.move_phase ((h.each t).rest hrest)
  act := by
    intro s P t op env h hallowed _
    -- most actions leave the phase, the online map and the names as they are
    have stays : ∀ {s' : ServerState}, s'.userManager = s.userManager →
        (∀ c, (s'.connections c).username = (s.connections c).username) →
        Identity s' (Function.update P t (P t)) := by
      intro s' husers hnames
      rw [Function.update_eq_self]
      exact h.congr husers hnames
    cases op with
    | username connection =>
      obtain ⟨rfl, hquiet⟩ := hallowed
      exact h.username hquiet
    | setUsername connection u =>
      obtain ⟨rfl, hlogging⟩ := hallowed
      exact h.setUsername hlogging
    | clearUsername connection =>
      obtain ⟨rfl, u, hleft⟩ := hallowed
      exact h.clearUsername hleft
    | userLogin u connection =>
      obtain ⟨rfl, hanonymous⟩ := hallowed
      exact h.login hanonymous u
    | userLogout u connection =>
      obtain ⟨rfl, hswept⟩ := hallowed
      exact h.userLogout hswept
    | userFind u => exact h.userFind u _
    | leaveAll u =>
      have hremoving : P t = .removing u := hallowed
      exact h.goes_on (u := u) (by rw [hremoving]; rfl) (by simp [hremoving]) rfl (fun _ => rfl) rfl
        (by simp [discipline, Phase.next])
    | removeUser u =>
      have hacting : P t = .acting u := hallowed
      exact h.goes_on (u := u) (by rw [hacting]; rfl) (by simp [hacting]) rfl (fun _ => rfl) rfl
        (by simp [discipline, Phase.next])
    | startCall a b id =>
      obtain ⟨hacting, -⟩ := hallowed
      exact h.startCall hacting
    | cancelCall a b id =>
      rcases hallowed with hphase | hphase
      · exact h.goes_on (u := a) (by rw [hphase]; rfl) (by simp [hphase]) rfl (fun _ => rfl) rfl
          (by simp [discipline, Phase.next])
      · exact h.goes_on (u := a) (by rw [hphase]; rfl) (by simp [hphase]) rfl (fun _ => rfl) rfl
          (by simp [discipline, Phase.next])
    | forceClose connection =>
      refine stays ?_ (fun c => ?_)
      · show (s.forceClose connection).userManager = _
        rw [ServerState.forceClose_eq]
        rfl
      · show ((s.forceClose connection).connections c).username = _
        rw [ServerState.forceClose_eq]
        exact s.username_withTcpState connection _ c
    | _ => exact stays rfl fun _ => rfl

/-- What any run reaches is in order. -/
theorem identity_of_reachable {storage : ChatStorage} {c : Config Conn Input Op Op.Response ServerState}
    (h : Reachable server (fun _ _ => True) (.initial storage) c) :
    Identity c.shared (discipline.phases c) ∧ discipline.Following c :=
  Typestate.invariant_always server_follows identity_kept (Identity.initial storage) h

/-! ### What follows for sessions and registrations -/

section

variable {s : ServerState} {P : Conn → Phase} {k : Conn}

/-- No connection has two names. -/
theorem Identity.one_name (h : Identity s P) {u v : Bytes} (hu : s.userManager.users[u]? = some k)
    (hv : s.userManager.users[v]? = some k) : u = v := by
  have hat := h.each k
  -- inside a login the session has no name yet, so both names are the one that is logging in
  have hlogging : ∀ {x y : Bytes}, (s.connections k).username = x → P k = .loggingIn y →
      s.userManager.users[x]? = some k → False := by
    intro x y hx hy hreg
    have hempty := (hat.loggingIn hy).1
    exact ne_nil_of_isValidName (h.valid hreg) (hx.symm.trans hempty)
  rcases hat.session hu with hname | hphase
  · rcases hat.session hv with hname' | hphase'
    · exact hname.symm.trans hname'
    · exact absurd hu (hlogging hname hphase')
  · rcases hat.session hv with hname' | hphase'
    · exact absurd hv (hlogging hname' hphase)
    · simpa using hphase.symm.trans hphase'

/-- Outside handlers the session has the name of the registration. -/
theorem Identity.username_iff (h : Identity s P) (hquiet : P k = .quiet) (u : Bytes) :
    ((s.connections k).username = u ∧ u ≠ []) ↔ s.userManager.users[u]? = some k := by
  have hat := h.each k
  constructor
  · rintro ⟨rfl, hne⟩
    exact (hat.online hne).resolve_right (by simp [hquiet])
  · intro hu
    exact ⟨(hat.session hu).resolve_right (by simp [hquiet]), ne_nil_of_isValidName (h.valid hu)⟩

end

/-- An action of connection `t` leaves the registrations of the others. -/
theorem registrations_act {s : ServerState} {t : Conn} {phase : Phase} {op : Op}
    (hallowed : Op.AllowedIn t phase op) (env : Env) (u : Bytes) {k : Conn} (hk : k ≠ t) :
    (exec env op s).2.userManager.users[u]? = some k ↔ s.userManager.users[u]? = some k := by
  cases op with
  | userLogin username connection =>
    obtain ⟨rfl, -⟩ := hallowed
    show (s.userManager.login username connection).2.users[u]? = some k ↔ _
    cases hresult : (s.userManager.login username connection).1 with
    | none =>
      obtain ⟨-, hfree, heq⟩ := UserManager.login_eq_none hresult
      rw [heq]
      exact UserManager.users_insert_iff hfree u hk
    | some error => rw [UserManager.login_eq_some hresult]
  | userLogout username connection =>
    obtain ⟨rfl, -⟩ := hallowed
    exact UserManager.users_logout_iff s.userManager username u hk
  | forceClose connection =>
    show (s.forceClose connection).userManager.users[u]? = some k ↔ _
    rw [ServerState.forceClose_eq]
    exact Iff.rfl
  | _ => exact Iff.rfl

/-- No step takes the registration of another connection away, nor gives it one. -/
theorem registrations_kept {c c' : Config Conn Input Op Op.Response ServerState} {t : Conn}
    (hfollowing : discipline.Following c) (hstep : Step server c t c') (u : Bytes) {k : Conn}
    (hk : k ≠ t) :
    c'.shared.userManager.users[u]? = some k ↔ c.shared.userManager.users[u]? = some k := by
  obtain ⟨move, hmove⟩ := hstep.moves
  have hadvances := (hfollowing.moves server_follows hmove).2
  cases move with
  | begin i =>
    obtain ⟨-, -, hshared, -⟩ := hadvances
    rw [hshared]
    cases i <;> exact Iff.rfl
  | act event =>
    obtain ⟨hallowed, ⟨env, -, hshared⟩, -⟩ := hadvances
    rw [hshared]
    exact registrations_act hallowed env u hk
  | finish =>
    obtain ⟨-, hshared, -⟩ := hadvances
    rw [hshared]

/-- **Sessions and registrations agree** in every reachable state, whatever the interleaving: the online
map holds valid names, each connection at most once; the session of a connection that is in no handler has
a name exactly when the connection is registered under it, so two such sessions have different names; and
a step of one connection leaves the registrations of the others. -/
theorem sessions_and_registrations_agree (storage : ChatStorage)
    {c : Config Conn Input Op Op.Response ServerState}
    (hrun : Reachable server (fun _ _ => True) (.initial storage) c) :
    (∀ (u : Bytes) (k : Conn), c.shared.userManager.users[u]? = some k → isValidName u = true) ∧
    (∀ (u v : Bytes) (k : Conn), c.shared.userManager.users[u]? = some k →
      c.shared.userManager.users[v]? = some k → u = v) ∧
    (∀ k, c.threads k = none → ∀ u : Bytes,
      ((c.shared.connections k).username = u ∧ u ≠ []) ↔
        c.shared.userManager.users[u]? = some k) ∧
    (∀ k k', c.threads k = none → c.threads k' = none →
      (c.shared.connections k).username = (c.shared.connections k').username →
      (c.shared.connections k).username ≠ [] → k = k') ∧
    (∀ t c', Step server c t c' → ∀ (u : Bytes) (k : Conn), k ≠ t →
      (c'.shared.userManager.users[u]? = some k ↔ c.shared.userManager.users[u]? = some k)) := by
  obtain ⟨h, hfollowing⟩ := identity_of_reachable hrun
  have hquiet : ∀ {k : Conn}, c.threads k = none → discipline.phases c k = .quiet := by
    intro k hk
    rw [Typestate.phases, hk]
    rfl
  refine ⟨fun u k => h.valid, fun u v k => h.one_name, fun k hk => h.username_iff (hquiet hk), ?_, ?_⟩
  · intro k k' hk hk' hsame hne
    have honline := (h.username_iff (hquiet hk) _).mp ⟨rfl, hne⟩
    have honline' := (h.username_iff (hquiet hk') _).mp ⟨hsame.symm, hne⟩
    exact Option.some.inj (honline.symm.trans honline')
  · intro t c' hstep u k hk
    exact registrations_kept hfollowing hstep u hk

/-! ### Two users who log in -/

def loginRequest (username : String) : Input :=
  .request (((∅ : JsonObject).insert (ascii "type") (ascii "login")).insert (ascii "username")
    (ascii username))

def logoutRequest : Input := .request ((∅ : JsonObject).insert (ascii "type") (ascii "logout"))

/-- Alice is connected on connection 1, bob on connection 2, … -/
def twoConnections : ServerState :=
  serve1 ⟨0, true⟩ 2 .connected (serve1 ⟨0, true⟩ 1 .connected (.initial .empty))

/-- … and both log in. -/
def aliceAndBob : ServerState :=
  serve1 ⟨0, true⟩ 2 (loginRequest "bob") (serve1 ⟨0, true⟩ 1 (loginRequest "alice") twoConnections)

theorem twoConnections_reachable : Serial server (.initial .empty) twoConnections :=
  Serial.serve1 (Serial.serve1 .init (admits_connected (by decide +kernel)))
    (admits_connected (by decide +kernel))

theorem aliceAndBob_reachable : Serial server (.initial .empty) aliceAndBob :=
  Serial.serve1 (Serial.serve1 twoConnections_reachable (admits_request (by decide +kernel) _))
    (admits_request (by decide +kernel) _)

/-- Bob's session has his name, so he is registered for connection 2. -/
theorem bob_is_registered : aliceAndBob.userManager.users[ascii "bob"]? = some 2 := by
  have hrun : Reachable server (fun _ _ => True) (.initial .empty) (.quiet aliceAndBob) :=
    aliceAndBob_reachable.reachable fun _ _ _ => trivial
  exact ((sessions_and_registrations_agree .empty hrun).2.2.1 2 rfl (ascii "bob")).mp
    ⟨by decide +kernel, by decide⟩

end ChatService
