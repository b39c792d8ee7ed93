import ChatService.Server.Identity
import ChatService.Server.RoomMembership

/-!
# Members of rooms are online

A logout sweeps the user's room memberships and only then releases the name.  In between, and as long as
the name is registered, no other handler acts for the user, so nobody can add a membership: every member is
registered through a connection that has not swept its memberships, and the login under way on that
connection has joined the room itself.  This holds in every reachable state, in the middle of handlers too,
and a user who has just logged in is in no room.
-/

namespace ChatService

open AtomicProgram SetTables

/-- The history of a run of the server. -/
abbrev History := List (Entry Conn Input Op Op.Response ServerState)

/-- The entry takes the registration of connection `k` away. -/
def LogsOut (k : Conn) (entry : Entry Conn Input Op Op.Response ServerState) : Prop :=
  ∃ u, entry.move = .act ⟨.userLogout u k, ()⟩

/-- Connection `k` logged in as `u` and has not logged out since; `since` is what happened since then. -/
def LoggedIn (history : History) (k : Conn) (u : Bytes) (since : History) : Prop :=
  ∃ before s, history = before ++ ⟨k, s, .act ⟨.userLogin u k, none⟩⟩ :: since ∧
    ∀ entry ∈ since, ¬ LogsOut k entry

/-- Connection `k` joined `room` as `u`. -/
def Joins (history : History) (k : Conn) (room u : Bytes) : Prop :=
  ∃ s, ⟨k, s, .act ⟨.joinRoom room u, none⟩⟩ ∈ history

/-- The login of `u` that is active on `k` has joined `room`. -/
def JoinedBy (history : History) (k : Conn) (room u : Bytes) : Prop :=
  ∃ since, LoggedIn history k u since ∧ Joins since k room u

/-- In `logout`, from where the user's room memberships are taken out. -/
def Phase.sweeping : Phase → Bool
  | swept _ => true
  | left _ => true
  | _ => false

section

variable {history since : History} {k : Conn} {u room : Bytes}
  {entry : Entry Conn Input Op Op.Response ServerState}

theorem LoggedIn.snoc (h : LoggedIn history k u since) (hentry : ¬ LogsOut k entry) :
    LoggedIn (history ++ [entry]) k u (since ++ [entry]) := by
  obtain ⟨before, s, rfl, hstays⟩ := h
  refine ⟨before, s, by simp, fun e he => ?_⟩
  rcases List.mem_append.mp he with he | he
  · exact hstays e he
  · rw [List.mem_singleton.mp he]
    exact hentry

theorem JoinedBy.snoc (h : JoinedBy history k room u) (hentry : ¬ LogsOut k entry) :
    JoinedBy (history ++ [entry]) k room u := by
  obtain ⟨since, hlogged, s, hjoin⟩ := h
  exact ⟨_, hlogged.snoc hentry, s, List.mem_append_left _ hjoin⟩

/-- A thread other than `k` does not log `k` out. -/
theorem not_logsOut_of_move {t : Conn} {s : ServerState} {move : Move Input Op Op.Response}
    (h : ∀ v, move ≠ .act ⟨.userLogout v k, ()⟩) : ¬ LogsOut k ⟨t, s, move⟩ := by
  rintro ⟨v, hv⟩
  exact h v hv

end

/-- What holds of the rooms, the registrations and the history. -/
structure RoomsInOrder (history : History) (s : ServerState) (P : Conn → Phase) : Prop where
  consistent : s.roomManager.Consistent
  logged : ∀ {u : Bytes} {k : Conn}, s.userManager.users[u]? = some k →
    ∃ since, LoggedIn history k u since
  member : ∀ {room u : Bytes}, Related s.roomManager.rooms room u →
    ∃ k, s.userManager.users[u]? = some k ∧ (P k).sweeping = false ∧ JoinedBy history k room u

namespace RoomsInOrder

variable {history : History} {s s' : ServerState} {P : Conn → Phase} {t : Conn} {phase : Phase}

/-- Moves that neither log in, nor log out, nor sweep, nor join. -/
theorem move (h : RoomsInOrder history s P) {m : Move Input Op Op.Response}
    (hmove : ∀ u k, m ≠ .act ⟨.userLogout u k, ()⟩) (husers : s'.userManager = s.userManager)
    (hconsistent : s'.roomManager.Consistent)
    (hrooms : ∀ {room u : Bytes}, Related s'.roomManager.rooms room u →
      Related s.roomManager.rooms room u)
    (hphase : (P t).sweeping = false → phase.sweeping = false) :
    RoomsInOrder (history ++ [⟨t, s, m⟩]) s' (Function.update P t phase) := by
  have hstays : ∀ {k : Conn}, ¬ LogsOut k ⟨t, s, m⟩ := not_logsOut_of_move fun v => hmove v _
  refine ⟨hconsistent, @fun u k hu => ?_, @fun room u hmember => ?_⟩
  · rw [husers] at hu
    obtain ⟨since, hlogged⟩ := h.logged hu
    exact ⟨_, hlogged.snoc hstays⟩
  · obtain ⟨k, hu, hsweeping, hjoined⟩ := h.member (hrooms hmember)
    refine ⟨k, by rwa [husers], ?_, hjoined.snoc hstays⟩
    by_cases hk : k = t
    · subst hk
      rw [Function.update_self]
      exact hphase hsweeping
    · rwa [Function.update_of_ne hk]

/-- The user who is acting joins a room. -/
theorem joinRoom (h : RoomsInOrder history s P) (hidentity : Identity s P) {u : Bytes} (room : Bytes)
    (hacting : P t = .acting u) :
    RoomsInOrder (history ++ [⟨t, s, .act ⟨.joinRoom room u, (s.roomManager.joinRoom room u).1⟩⟩])
      { s with roomManager := (s.roomManager.joinRoom room u).2 } P := by
  have hstays : ∀ {k : Conn} {response : Option Bytes},
      ¬ LogsOut k ⟨t, s, .act ⟨.joinRoom room u, response⟩⟩ :=
    not_logsOut_of_move fun _ hmove => by cases hmove
  have honline : s.userManager.users[u]? = some t :=
    (hidentity.each t).registered (by rw [hacting]; rfl) (by simp [hacting])
  refine ⟨h.consistent.joinRoom room u, @fun v k hv => ?_, @fun r v hmember => ?_⟩
  · obtain ⟨since, hlogged⟩ := h.logged hv
    exact ⟨_, hlogged.snoc hstays⟩
  have hold : Related s.roomManager.rooms r v →
      ∃ k, s.userManager.users[v]? = some k ∧ (P k).sweeping = false ∧
        JoinedBy (history ++ [⟨t, s, .act ⟨.joinRoom room u, (s.roomManager.joinRoom room u).1⟩⟩])
          k r v := by
    intro hmember
    obtain ⟨k, hv, hsweeping, hjoined⟩ := h.member hmember
    exact ⟨k, hv, hsweeping, hjoined.snoc hstays⟩
  rcases (RoomManager.performs_joinRoom s.roomManager room u).members (u := v) (r := r) hmember with
    hmember | ⟨hresult, hnew | hmember⟩
  · exact hold hmember
  · -- the new membership: the login that is active has joined just now
    obtain ⟨rfl, rfl⟩ := Prod.mk.inj hnew
    obtain ⟨since, hlogged⟩ := h.logged honline
    have hjoined : (s.roomManager.joinRoom r v).1 = none := hresult
    rw [hjoined]
    exact ⟨t, honline, by rw [hacting]; rfl, _, hlogged.snoc hstays, s, by simp⟩
  · exact hold hmember

/-- A logout sweeps the memberships, … -/
theorem leaveAll (h : RoomsInOrder history s P) (hidentity : Identity s P) {u : Bytes}
    (hremoving : P t = .removing u) :
    RoomsInOrder (history ++ [⟨t, s, .act ⟨.leaveAll u, ()⟩⟩])
      { s with roomManager := s.roomManager.leaveAll u } (Function.update P t (.swept u)) := by
  have hstays : ∀ {k : Conn}, ¬ LogsOut k ⟨t, s, .act ⟨.leaveAll u, ()⟩⟩ :=
    not_logsOut_of_move fun _ hmove => by cases hmove
  have honline : s.userManager.users[u]? = some t :=
    (hidentity.each t).registered (by rw [hremoving]; rfl) (by simp [hremoving])
  refine ⟨h.consistent.leaveAll u, @fun v k hv => ?_, @fun r v hmember => ?_⟩
  · obtain ⟨since, hlogged⟩ := h.logged hv
    exact ⟨_, hlogged.snoc hstays⟩
  · obtain ⟨hold, hne⟩ := (RoomManager.related_leaveAll h.consistent u r v).mp hmember
    obtain ⟨k, hv, hsweeping, hjoined⟩ := h.member hold
    -- a remaining member is not the user, so it is registered through another connection
    have hk : k ≠ t := by
      rintro rfl
      exact hne (hidentity.one_name hv honline)
    exact ⟨k, hv, by rwa [Function.update_of_ne hk], hjoined.snoc hstays⟩

/-- … and then releases the name. -/
theorem userLogout (h : RoomsInOrder history s P) (hidentity : Identity s P) {u : Bytes}
    (hswept : P t = .swept u) :
    RoomsInOrder (history ++ [⟨t, s, .act ⟨.userLogout u t, ()⟩⟩])
      { s with userManager := s.userManager.logout u t } (Function.update P t (.left u)) := by
  have hstays : ∀ {k : Conn}, k ≠ t → ¬ LogsOut k ⟨t, s, .act ⟨.userLogout u t, ()⟩⟩ := by
    intro k hk
    apply not_logsOut_of_move
    intro v hmove
    injection hmove with hevent
    injection hevent with hop
    injection hop with _ hconnection
    exact hk hconnection.symm
  refine ⟨h.consistent, @fun v k hv => ?_, @fun r v hmember => ?_⟩
  · have hk : k ≠ t := by
      rintro rfl
      have hgone := (hidentity.userLogout hswept).each k
      rw [Function.update_self] at hgone
      obtain rfl : v = u := hgone.unique rfl hv
      exact hgone.left rfl hv
    obtain ⟨since, hlogged⟩ := h.logged ((UserManager.users_logout_iff _ u v hk).mp hv)
    exact ⟨_, hlogged.snoc (hstays hk)⟩
  · obtain ⟨k, hv, hsweeping, hjoined⟩ := h.member hmember
    have hk : k ≠ t := by
      rintro rfl
      rw [hswept] at hsweeping
      exact absurd hsweeping (by simp [Phase.sweeping])
    exact ⟨k, (UserManager.users_logout_iff _ u v hk).mpr hv, by rwa [Function.update_of_ne hk],
      hjoined.snoc (hstays hk)⟩

/-- A login begins with no memberships, since its name was free. -/
theorem userLogin (h : RoomsInOrder history s P) {u : Bytes}
    (hfree : s.userManager.users[u]? = none) :
    RoomsInOrder (history ++ [⟨t, s, .act ⟨.userLogin u t, none⟩⟩])
      { s with userManager := { users := s.userManager.users.insert u t } }
      (Function.update P t (.loggingIn u)) := by
  have hstays : ∀ {k : Conn}, ¬ LogsOut k ⟨t, s, .act ⟨.userLogin u t, none⟩⟩ :=
    not_logsOut_of_move fun _ hmove => by cases hmove
  refine ⟨h.consistent, @fun v k hv => ?_, @fun r v hmember => ?_⟩
  · by_cases huv : u = v
    · subst huv
      obtain rfl : t = k := Option.some.inj ((Tables.getElem?_insert_self ..).symm.trans hv)
      exact ⟨[], history, s, rfl, fun e he => absurd he (by simp)⟩
    · obtain ⟨since, hlogged⟩ := h.logged ((Tables.getElem?_insert_of_ne huv).symm.trans hv)
      exact ⟨_, hlogged.snoc hstays⟩
  · obtain ⟨k, hv, hsweeping, hjoined⟩ := h.member hmember
    have huv : u ≠ v := by
      rintro rfl
      exact absurd (hfree.symm.trans hv) (by simp)
    refine ⟨k, (Tables.getElem?_insert_of_ne huv).trans hv, ?_, hjoined.snoc hstays⟩
    by_cases hk : k = t
    · subst hk
      rw [Function.update_self]
      rfl
    · rwa [Function.update_of_ne hk]

/-- Actions that leave the rooms and the online map as they are. -/
theorem unchanged (h : RoomsInOrder history s P) {op : Op} {response : op.Response}
    (hop : ∀ u k, op ≠ .userLogout u k) (husers : s'.userManager = s.userManager)
    (hrooms : s'.roomManager = s.roomManager)
    (hphase : (P t).sweeping = false → phase.sweeping = false) :
    RoomsInOrder (history ++ [⟨t, s, .act ⟨op, response⟩⟩]) s' (Function.update P t phase) := by
  refine h.move (fun u k hm => ?_) husers (hrooms ▸ h.consistent) (fun hr => hrooms ▸ hr) hphase
  injection hm with hevent
  injection hevent with hop'
  exact hop u k hop'

/-- A login that is tried, whatever comes of it. -/
theorem login (h : RoomsInOrder history s P) (u : Bytes) :
    RoomsInOrder (history ++ [⟨t, s, .act ⟨.userLogin u t, (s.userManager.login u t).1⟩⟩])
      { s with userManager := (s.userManager.login u t).2 }
      (Function.update P t ((P t).next (.userLogin u t) (s.userManager.login u t).1)) := by
  cases hresult : (s.userManager.login u t).1 with
  | none =>
    obtain ⟨-, hfree, heq⟩ := UserManager.login_eq_none hresult
    rw [heq]
    exact h.userLogin hfree
  | some error =>
    rw [UserManager.login_eq_some hresult]
    exact h.unchanged (fun _ _ hop => by cases hop) rfl rfl id

/-- Taking a member out of a room, or not. -/
theorem leaveRoom (h : RoomsInOrder history s P) (room u : Bytes) {response : Option Bytes} :
    RoomsInOrder (history ++ [⟨t, s, .act ⟨.leaveRoom room u, response⟩⟩])
      { s with roomManager := (s.roomManager.leaveRoom room u).2 } (Function.update P t (P t)) := by
  refine h.move (fun _ _ hm => by cases hm) rfl (h.consistent.leaveRoom room u) (fun {r v} hmember => ?_) id
  rcases (RoomManager.performs_leaveRoom s.roomManager room u).members (u := v) (r := r) hmember with
    hmember | ⟨-, hmember, -⟩
  · exact hmember
  · exact hmember

/-- A new room has no members. -/
theorem createRoom (h : RoomsInOrder history s P) (room : Bytes) {response : Option Bytes} :
    RoomsInOrder (history ++ [⟨t, s, .act ⟨.createRoom room, response⟩⟩])
      { s with roomManager := (s.roomManager.createRoom room).2 } (Function.update P t (P t)) := by
  refine h.move (fun _ _ hm => by cases hm) rfl (h.consistent.createRoom room) (fun {r v} hmember => ?_) id
  rcases (RoomManager.performs_createRoom s.roomManager room).members (u := v) (r := r) hmember with
    hmember | ⟨-, hmember⟩
  · exact hmember
  · exact hmember

/-- Every action keeps the rooms in order. -/
theorem act (h : RoomsInOrder history s P) (hidentity : Identity s P) {op : Op}
    (hallowed : Op.AllowedIn t (P t) op) (env : Env) :
    RoomsInOrder (history ++ [⟨t, s, .act ⟨op, (exec env op s).1⟩⟩]) (exec env op s).2
      (Function.update P t ((P t).next op (exec env op s).1)) := by
  have hsweeping : ∀ {phase : Phase}, phase.sweeping = false →
      ((P t).sweeping = false → phase.sweeping = false) := fun hphase _ => hphase
  cases op with
  | userLogin u connection =>
    obtain ⟨rfl, -⟩ := hallowed
    exact h.login u
  | userLogout u connection =>
    obtain ⟨rfl, hswept⟩ := hallowed
    exact h.userLogout hidentity hswept
  | leaveAll u => exact h.leaveAll hidentity hallowed
  | joinRoom room u =>
    have hjoin := h.joinRoom hidentity room (show P t = .acting u from hallowed)
    rw [← Function.update_eq_self t P] at hjoin
    exact hjoin
  | leaveRoom room u => exact h.leaveRoom room u
  | createRoom room => exact h.createRoom room
  | username connection =>
    refine h.unchanged (fun _ _ hop => by cases hop) rfl rfl (hsweeping ?_)
    show (if (s.connections connection).username = [] then Phase.anonymous
      else .acting (s.connections connection).username).sweeping = false
    split_ifs <;> rfl
  | setUsername connection u =>
    exact h.unchanged (fun _ _ hop => by cases hop) rfl rfl (hsweeping rfl)
  | clearUsername connection =>
    exact h.unchanged (fun _ _ hop => by cases hop) rfl rfl (hsweeping rfl)
  | cancelCall a b id => exact h.unchanged (fun _ _ hop => by cases hop) rfl rfl (hsweeping rfl)
  | removeUser u => exact h.unchanged (fun _ _ hop => by cases hop) rfl rfl (hsweeping rfl)
  | userFind u =>
    refine h.unchanged (fun _ _ hop => by cases hop) rfl rfl fun hphase => ?_
    show ((P t).next (.userFind u) (s.userManager.find u)).sweeping = false
    cases s.userManager.find u with
    | none => exact hphase
    | some c =>
      cases hp : P t with
      | inviting a b id => rfl
      | _ => rw [hp] at hphase; exact hphase
  | startCall a b id =>
    refine h.unchanged (fun _ _ hop => by cases hop) rfl rfl fun hphase => ?_
    show ((P t).next (.startCall a b id) (s.callManager.startCall a b id).1).sweeping = false
    cases (s.callManager.startCall a b id).1 with
    | none => rfl
    | some reason => exact hphase
  | forceClose connection =>
    show RoomsInOrder _ (s.forceClose connection) (Function.update P t (P t))
    rw [ServerState.forceClose_eq]
    exact h.unchanged (fun _ _ hop => by cases hop) rfl rfl id
  | _ => exact h.unchanged (fun _ _ hop => by cases hop) rfl rfl id

/-- Every disciplined move keeps the rooms in order. -/
theorem step (h : RoomsInOrder history s P) (hidentity : Identity s P)
    {m : Move Input Op Op.Response} {P' : Conn → Phase}
    (hadvances : discipline.Advances server s P t m s' P') :
    RoomsInOrder (history ++ [⟨t, s, m⟩]) s' P' := by
  cases m with
  | begin i =>
    obtain ⟨-, -, hshared, hphases⟩ := hadvances
    rw [hshared, hphases]
    have hmove : RoomsInOrder (history ++ [⟨t, s, .begin i⟩]) (enter t i s)
        (Function.update P t (P t)) :=
      h.move (fun _ _ hm => by cases hm) (by cases i <;> rfl) (by cases i <;> exact h.consistent)
        (by cases i <;> exact id) id
    rwa [Function.update_eq_self] at hmove
  | finish =>
    obtain ⟨-, rfl, rfl⟩ := hadvances
    exact h.move (fun _ _ hm => by cases hm) rfl h.consistent id fun _ => rfl
  | act event =>
    obtain ⟨op, response⟩ := event
    obtain ⟨hallowed, ⟨env, hresponse, hshared⟩, hphases⟩ := hadvances
    obtain rfl : response = (exec env op s).1 := hresponse
    rw [hshared, hphases]
    exact h.act hidentity hallowed env

/-- Nobody is in a room at the start. -/
theorem initial (storage : ChatStorage) :
    RoomsInOrder [] (.initial storage) fun _ => discipline.resting := by
  refine ⟨RoomManager.Consistent.empty, @fun u k hu => ?_, @fun room u hmember => ?_⟩
  · exact absurd hu (by simp [ServerState.initial, UserManager.empty])
  · refine absurd hmember (not_related_of_none ?_)
    simp [ServerState.initial, RoomManager.empty]

end RoomsInOrder

/-- What any run reaches is in order, its history included. -/
theorem roomsInOrder_of_traced {storage : ChatStorage} {history : History}
    {c : Config Conn Input Op Op.Response ServerState}
    (h : Traced server (.initial storage) history c) :
    RoomsInOrder history c.shared (discipline.phases c) := by
  induction h with
  | init => exact RoomsInOrder.initial storage
  | step hrun hmove ih =>
    obtain ⟨hidentity, hfollowing⟩ := identity_of_reachable hrun.reachable
    exact ih.step hidentity (hfollowing.moves server_follows hmove).2

/-- Only a login registers a name, which was free, and it leaves the rooms as they are. -/
theorem registers_act {s : ServerState} {t : Conn} {phase : Phase} {op : Op}
    (hallowed : Op.AllowedIn t phase op) {env : Env} {u : Bytes} {k : Conn}
    (hold : s.userManager.users[u]? ≠ some k)
    (hnew : (exec env op s).2.userManager.users[u]? = some k) :
    s.userManager.users[u]? = none ∧ (exec env op s).2.roomManager = s.roomManager := by
  cases op with
  | userLogin username connection =>
    change (s.userManager.login username connection).2.users[u]? = some k at hnew
    cases hresult : (s.userManager.login username connection).1 with
    | none =>
      obtain ⟨-, hfree, heq⟩ := UserManager.login_eq_none hresult
      rw [heq] at hnew
      have hu : username = u := by
        by_contra hne
        exact hold ((Tables.getElem?_insert_of_ne hne).symm.trans hnew)
      exact ⟨hu ▸ hfree, rfl⟩
    | some error =>
      rw [UserManager.login_eq_some hresult] at hnew
      exact absurd hnew hold
  | userLogout username connection =>
    change (s.userManager.logout username connection).users[u]? = some k at hnew
    rw [UserManager.logout_users] at hnew
    split_ifs at hnew
    exact absurd hnew hold
  | forceClose connection =>
    change (s.forceClose connection).userManager.users[u]? = some k at hnew
    rw [ServerState.forceClose_eq] at hnew
    exact absurd hnew hold
  | _ => exact absurd hnew hold

/-- A name that a step registers is in no room. -/
theorem no_rooms_after_login {history : History} {c c' : Config Conn Input Op Op.Response ServerState}
    {t : Conn} (h : RoomsInOrder history c.shared (discipline.phases c))
    (hfollowing : discipline.Following c) (hstep : Step server c t c') {u : Bytes} {k : Conn}
    (hold : c.shared.userManager.users[u]? ≠ some k)
    (hnew : c'.shared.userManager.users[u]? = some k) (room : Bytes) :
    ¬ Related c'.shared.roomManager.rooms room u := by
  obtain ⟨move, hmove⟩ := hstep.moves
  have hadvances := (hfollowing.moves server_follows hmove).2
  cases move with
  | begin i =>
    obtain ⟨-, -, hshared, -⟩ := hadvances
    have husers : c'.shared.userManager = c.shared.userManager := by
      rw [hshared]
      cases i <;> rfl
    exact absurd (husers ▸ hnew) hold
  | finish =>
    obtain ⟨-, hshared, -⟩ := hadvances
    exact absurd (hshared ▸ hnew) hold
  | act event =>
    obtain ⟨hallowed, ⟨env, -, hshared⟩, -⟩ := hadvances
    rw [hshared] at hnew ⊢
    obtain ⟨hfree, hrooms⟩ := registers_act hallowed hold hnew
    change ¬ Related (exec env event.op c.shared).2.roomManager.rooms room u
    rw [hrooms]
    intro hmember
    obtain ⟨k', hu, -⟩ := h.member hmember
    exact absurd (hfree.symm.trans hu) (by simp)

/-- **Members of rooms are online** in every reachable state, in the middle of handlers too: a member is
registered, and the login that is active on the connection registered for the member has joined the room
itself, since its login and not by inheritance.  A step that registers a user leaves the user in no room. -/
theorem members_are_online (storage : ChatStorage) {history : History}
    {c : Config Conn Input Op Op.Response ServerState}
    (hrun : Traced server (.initial storage) history c) :
    (∀ room u : Bytes, (u, room) ∈ c.shared.roomManager.membership.members →
      ∃ k, c.shared.userManager.users[u]? = some k ∧ JoinedBy history k room u) ∧
    (∀ t c', Step server c t c' → ∀ (u : Bytes) (k : Conn),
      c.shared.userManager.users[u]? ≠ some k → c'.shared.userManager.users[u]? = some k →
      ∀ room : Bytes, (u, room) ∉ c'.shared.roomManager.membership.members) := by
  have h := roomsInOrder_of_traced hrun
  have hfollowing := (identity_of_reachable hrun.reachable).2
  refine ⟨fun room u hmember => ?_, fun t c' hstep u k hold hnew room => ?_⟩
  · obtain ⟨k, hu, -, hjoined⟩ := h.member hmember
    exact ⟨k, hu, hjoined⟩
  · exact no_rooms_after_login h hfollowing hstep hold hnew room

/-! ### A room with a member -/

def roomRequest (type room : String) : Input :=
  .request (((∅ : JsonObject).insert (ascii "type") (ascii type)).insert (ascii "room") (ascii room))

/-- Bob makes a room and joins it. -/
def bobInLobby : ServerState :=
  serve1 ⟨0, true⟩ 2 (roomRequest "join" "lobby")
    (serve1 ⟨0, true⟩ 2 (roomRequest "create_room" "lobby") aliceAndBob)

theorem bobInLobby_reachable : Serial server (.initial .empty) bobInLobby :=
  Serial.serve1 (Serial.serve1 aliceAndBob_reachable (admits_request (by decide +kernel) _))
    (admits_request (by decide +kernel) _)

/-- Bob's login has joined the room. -/
theorem bob_joined_lobby :
    ∃ history, Traced server (.initial .empty) history (.quiet bobInLobby) ∧
      ∃ k, bobInLobby.userManager.users[ascii "bob"]? = some k ∧
        JoinedBy history k (ascii "lobby") (ascii "bob") := by
  have hrun : Reachable server (fun _ _ => True) (.initial .empty) (.quiet bobInLobby) :=
    bobInLobby_reachable.reachable fun _ _ _ => trivial
  obtain ⟨history, htraced⟩ := hrun.traced
  have hmembers : bobInLobby.roomManager.membersForMessage (ascii "lobby") (ascii "bob") =
      .ok [ascii "bob"] := by decide +kernel
  have hmember := RoomManager.membersForMessage_isOk_iff.mp ⟨_, hmembers⟩
  exact ⟨history, htraced, (members_are_online .empty htraced).1 _ _ hmember⟩

end ChatService
