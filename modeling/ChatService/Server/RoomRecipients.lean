import ChatService.Server.RoomDelivery
import ChatService.Server.RoomPresence

/-!
# Who else may get a room message

The members of a room are taken by name, and the names are looked up after the message is saved.  So the event
goes to whoever has a member's name by then.  The login that made the name a member had joined the room
itself; unless it has logged out since, it is the one that gets the event.  If it has, the name may be that of
another client, who never joined the room.
-/

namespace ChatService

open AtomicProgram SetTables

section

variable {history during since : History} {k : Conn} {u room : Bytes}

/-- A login goes on while the connection does not log out, … -/
theorem LoggedIn.append (h : LoggedIn history k u since) (hduring : ∀ entry ∈ during, ¬ LogsOut k entry) :
    LoggedIn (history ++ during) k u (since ++ during) := by
  obtain ⟨before, s, rfl, hstays⟩ := h
  refine ⟨before, s, by simp, fun entry hentry => ?_⟩
  rcases List.mem_append.mp hentry with hold | hnew
  · exact hstays entry hold
  · exact hduring entry hnew

/-- … and so does what it has joined. -/
theorem JoinedBy.append (h : JoinedBy history k room u) (hduring : ∀ entry ∈ during, ¬ LogsOut k entry) :
    JoinedBy (history ++ during) k room u := by
  obtain ⟨since, hlogged, s, hjoin⟩ := h
  exact ⟨_, hlogged.append hduring, s, List.mem_append_left _ hjoin⟩

end

/-- Only a logout takes a registration away. -/
theorem registered_act {s : ServerState} {t k : Conn} {phase : Phase} {op : Op}
    (hallowed : Op.AllowedIn t phase op) (env : Env) {u : Bytes}
    (hu : s.userManager.users[u]? = some k) (hop : ∀ v, op ≠ .userLogout v k) :
    (exec env op s).2.userManager.users[u]? = some k := by
  by_cases hk : k = t
  · subst hk
    cases op with
    | userLogin username connection =>
      show (s.userManager.login username connection).2.users[u]? = some k
      cases hresult : (s.userManager.login username connection).1 with
      | none =>
        obtain ⟨-, hfree, heq⟩ := UserManager.login_eq_none hresult
        have hne : username ≠ u := by
          rintro rfl
          exact absurd (hfree.symm.trans hu) (by simp)
        rw [heq]
        exact (Tables.getElem?_insert_of_ne hne).trans hu
      | some error =>
        rw [UserManager.login_eq_some hresult]
        exact hu
    | userLogout username connection =>
      obtain ⟨rfl, -⟩ := hallowed
      exact absurd rfl (hop username)
    | forceClose connection =>
      show (s.forceClose connection).userManager.users[u]? = some k
      rw [ServerState.forceClose_eq]
      exact hu
    | _ => exact hu
  · exact (registrations_act hallowed env u hk).mpr hu

/-- The login that is active on a connection is registered. -/
theorem registered_of_loggedIn {storage : ChatStorage} {history : History}
    {c : Config Conn Input Op Op.Response ServerState} (h : Traced server (.initial storage) history c)
    {k : Conn} {u : Bytes} {since : History} (hlogged : LoggedIn history k u since) :
    c.shared.userManager.users[u]? = some k := by
  induction h generalizing since with
  | init =>
    obtain ⟨before, s, hhistory, -⟩ := hlogged
    exact absurd hhistory (by simp)
  | @step history c t move c' hrun hmove ih =>
    obtain ⟨before, s, hhistory, hstays⟩ := hlogged
    have hadvances := ((identity_of_reachable hrun.reachable).2.moves server_follows hmove).2
    rcases List.eq_nil_or_concat since with rfl | ⟨since, last, rfl⟩
    · obtain ⟨rfl, hlast⟩ := List.append_inj' hhistory rfl
      obtain ⟨rfl, rfl, rfl⟩ : t = k ∧ c.shared = s ∧ move = .act ⟨.userLogin u k, none⟩ := by
        simpa using hlast
      obtain ⟨-, ⟨env, hresponse, hshared⟩, -⟩ := hadvances
      obtain ⟨-, -, heq⟩ := UserManager.login_eq_none (m := c.shared.userManager) hresponse.symm
      rw [hshared]
      show (c.shared.userManager.login u t).2.users[u]? = some t
      rw [heq]
      exact Tables.getElem?_insert_self ..
    · rw [List.concat_eq_append] at hhistory hstays
      rw [← List.cons_append, ← List.append_assoc] at hhistory
      obtain ⟨hbefore, hlast⟩ := List.append_inj' hhistory rfl
      obtain rfl := List.singleton_inj.mp hlast
      have hu := ih ⟨before, s, hbefore, fun entry hentry => hstays entry (List.mem_append_left _ hentry)⟩
      have hmove' : ¬ LogsOut k ⟨t, c.shared, move⟩ := hstays _ (by simp)
      cases move with
      | begin i =>
        obtain ⟨-, -, hshared, -⟩ := hadvances
        rw [hshared]
        cases i <;> exact hu
      | act event =>
        obtain ⟨hallowed, ⟨env, -, hshared⟩, -⟩ := hadvances
        rw [hshared]
        refine registered_act hallowed env hu fun v hop => hmove' ⟨v, ?_⟩
        obtain ⟨op, response⟩ := event
        obtain rfl : op = .userLogout v k := hop
        rfl
      | finish =>
        obtain ⟨-, hshared, -⟩ := hadvances
        rw [hshared]
        exact hu

/-- Those whom a snapshot lists are logged in, and their logins have joined the room. -/
theorem joined_of_snapshot {storage : ChatStorage} {history : History}
    {c : Config Conn Input Op Op.Response ServerState} (h : Traced server (.initial storage) history c)
    {earlier during : History} {t : Conn} {s : ServerState} {room username : Bytes} {members : List Bytes}
    (hhistory : history = earlier ++ snapshot t s room username members :: during) {v : Bytes}
    (hv : v ∈ members) : ∃ k, s.userManager.users[v]? = some k ∧ JoinedBy earlier k room v := by
  obtain ⟨c₁, c₂, hrun, hshared, hmove⟩ := h.split hhistory
  have hfollowing := (identity_of_reachable hrun.reachable).2
  obtain ⟨-, ⟨env, hresponse, -⟩, -⟩ := (hfollowing.moves server_follows hmove).2
  have hmembers : c₁.shared.roomManager.membersForMessage room username = .ok members := hresponse.symm
  have hmember := ((RoomManager.membersForMessage_eq_ok hmembers).2 v).mp hv
  obtain ⟨k, hu, hjoined⟩ := (members_are_online storage hrun).1 room v hmember
  have hshared' : c₁.shared = s := hshared
  exact ⟨k, hshared' ▸ hu, hjoined⟩

/-- Where a room event goes: the connection was found for one of the snapshot. -/
theorem found_of_send {storage : ChatStorage} {history : History}
    {c : Config Conn Input Op Op.Response ServerState} (h : Traced server (.initial storage) history c)
    {before after : History} {t k : Conn} {s : ServerState} {room sender content : Bytes}
    {createdAt id : ℤ}
    (hhistory : history = before ++
      ⟨t, s, .act ⟨.send k ((Save.roomMessage room sender content createdAt).event id), ()⟩⟩ :: after) :
    ∃ members during, Snapped before t room sender members during ∧ ∃ v ∈ members, Found t v k during := by
  obtain ⟨c₁, c₂, hrun, -, hmove⟩ := h.split hhistory
  obtain ⟨hbroadcasting, hfollowing⟩ := broadcasting_of_traced hrun
  have hmay : (delivery.phases c₁ t).MaySend k ((Save.roomMessage room sender content createdAt).event id) :=
    (hfollowing.moves server_delivers hmove).2.1
  have hready : (delivery.phases c₁ t).Ready c₁.shared.sent c₁.shared.storage.lastId := by
    have hordered := (ordered_of_reachable hrun.reachable).ready t
    rwa [Typestate.phases_both] at hordered
  obtain ⟨save, remaining, hphase, hsender⟩ := hmay.roomEvent hready ⟨room, content, createdAt, rfl⟩
  have hrecalls := hbroadcasting.recalls t
  rw [hphase] at hmay hrecalls
  obtain ⟨room', content', createdAt', members, during, hsave, hsnapped, hfound⟩ := hrecalls
  -- the event in hand is the one that is sent
  have hevent := hmay.2
  rw [hsave] at hevent
  obtain ⟨rfl, -⟩ := roomEvent_inj hevent
  rw [hsender] at hsnapped
  exact ⟨members, during, hsnapped, hfound k List.mem_cons_self⟩

/-- **Who gets a room message.**  Whenever a room event is sent on a connection, the connection was found, after
the snapshot of the members, under the name of one of them; the login that this name had at the snapshot had
joined the room; and unless that login has logged out between the snapshot and the send, it is the one that is
active on the connection. -/
theorem recipients_have_joined (storage : ChatStorage) {history : History}
    {c : Config Conn Input Op Op.Response ServerState}
    (hrun : Traced server (.initial storage) history c) {before after : History} {t k : Conn}
    {s : ServerState} {room sender content : Bytes} {createdAt id : ℤ}
    (hsend : history = before ++
      ⟨t, s, .act ⟨.send k ((Save.roomMessage room sender content createdAt).event id), ()⟩⟩ :: after) :
    ∃ earlier s₀ members during v k₀,
      before = earlier ++ snapshot t s₀ room sender members :: during ∧ Within t during ∧
      v ∈ members ∧ Found t v k during ∧
      s₀.userManager.users[v]? = some k₀ ∧ JoinedBy earlier k₀ room v ∧
      ((∀ entry ∈ during, ¬ LogsOut k₀ entry) → k = k₀ ∧ JoinedBy before k room v) := by
  obtain ⟨members, during, ⟨⟨earlier, s₀, hsplit⟩, hwithin⟩, v, hv, hfound⟩ := found_of_send hrun hsend
  obtain ⟨c₁, c₂, hbefore, -⟩ := hrun.split hsend
  obtain ⟨k₀, hu, hjoined⟩ := joined_of_snapshot hbefore hsplit hv
  refine ⟨earlier, s₀, members, during, v, k₀, hsplit, hwithin, hv, hfound, hu, hjoined, fun hstays => ?_⟩
  have hstays' : ∀ entry ∈ snapshot t s₀ room sender members :: during, ¬ LogsOut k₀ entry := by
    rw [List.forall_mem_cons]
    exact ⟨not_logsOut_of_move (fun _ hmove => by cases hmove), hstays⟩
  -- at the look-up the login is still registered, so it is what was found
  obtain ⟨entry, hentry, -, hk⟩ := hfound
  obtain ⟨first, last, rfl⟩ := List.append_of_mem hentry
  have hsplit' : before = (earlier ++ snapshot t s₀ room sender members :: first) ++ entry :: last := by
    rw [hsplit]
    simp
  obtain ⟨c₃, c₄, hlookup, hshared, -⟩ := hbefore.split hsplit'
  have hfirst : ∀ e ∈ snapshot t s₀ room sender members :: first, ¬ LogsOut k₀ e := by
    intro e he
    apply hstays'
    rw [← List.cons_append]
    exact List.mem_append_left _ he
  obtain ⟨since, hlogged, -⟩ := hjoined.append hfirst
  have hk₀ := registered_of_loggedIn hlookup hlogged
  rw [hshared, hk] at hk₀
  obtain rfl := Option.some.inj hk₀
  exact ⟨rfl, hsplit ▸ hjoined.append hstays'⟩

/-- Bob, who sends to a room that he is in alone, gets the event for a login that joined the room. -/
theorem bob_is_a_recipient :
    ∃ before s₀ members during v k₀, before = snapshot 2 s₀ (ascii "lobby") (ascii "bob") members :: during ∧
      Found 2 v 2 during ∧ s₀.userManager.users[v]? = some k₀ ∧
      ∃ earlier, JoinedBy earlier k₀ (ascii "lobby") v := by
  have hquiet : Reachable server (fun _ _ => True) (.initial .empty) (.quiet bobInLobby) :=
    bobInLobby_reachable.reachable fun _ _ _ => trivial
  obtain ⟨earlier, htraced⟩ := hquiet.traced
  have hmembers : bobInLobby.roomManager.membersForMessage (ascii "lobby") (ascii "bob") =
      .ok [ascii "bob"] := by decide +kernel
  obtain ⟨done, hsaves⟩ := traced_savesRoomMessage (t := 2) htraced ⟨7, true⟩ (ascii "hi") rfl
    (by decide +kernel) (by decide +kernel) (by decide) (by decide) hmembers rfl
  have hfound := hsaves.perform ⟨7, true⟩ (r := [2]) (by decide +kernel)
  have hsent := hfound.perform ⟨7, true⟩ (r := ()) rfl
  obtain ⟨earlier', s₀, members, during, v, k₀, -, -, -, hv, hk₀, hjoined, -⟩ :=
    recipients_have_joined .empty hsent rfl
  exact ⟨_, s₀, members, during, v, k₀, rfl, hv, hk₀, earlier', hjoined⟩

/-! ### A name that changes hands -/

/-- No entry joins a room on connection `k`. -/
def JoinsNothing (k : Conn) (history : History) : Prop :=
  ∀ entry ∈ history, entry.thread = k → ∀ room u response, entry.move ≠ .act ⟨.joinRoom room u, response⟩

theorem JoinsNothing.not_joins {k : Conn} {history : History} (h : JoinsNothing k history) (room u : Bytes) :
    ¬ Joins history k room u := by
  rintro ⟨s, hentry⟩
  exact h _ hentry rfl room u none rfl

theorem JoinsNothing.append {k : Conn} {history history' : History} (h : JoinsNothing k history)
    (h' : JoinsNothing k history') : JoinsNothing k (history ++ history') := by
  intro entry hentry
  rcases List.mem_append.mp hentry with hentry | hentry
  · exact h entry hentry
  · exact h' entry hentry

/-- The handlers of the other connections do not, … -/
theorem joinsNothing_of_ne {k t : Conn} {history : History} (h : ∀ entry ∈ history, entry.thread = t)
    (ht : t ≠ k) : JoinsNothing k history := by
  intro entry hentry hk
  exact absurd ((h entry hentry).symm.trans hk) ht

/-- … nor does a handler that has no such action. -/
theorem joinsNothing_run {k t : Conn} {i : Input} {s : ServerState} (env : Env)
    (h : (server.program t i).Only fun op => ∀ room u, op ≠ .joinRoom room u) :
    JoinsNothing k (⟨t, s, .begin i⟩ :: restEntries server env t (server.program t i) (server.enter t i s)) := by
  intro entry hentry _ room u response hmove
  rcases List.mem_cons.mp hentry with rfl | hentry
  · exact absurd hmove (by simp)
  rcases List.mem_append.mp hentry with hentry | hentry
  · obtain ⟨logged, hlogged, rfl⟩ := List.mem_map.mp hentry
    have hop : logged.2.op = .joinRoom room u := congrArg Event.op (Move.act.inj hmove)
    exact h.log env hlogged room u hop
  · rw [List.mem_singleton.mp hentry] at hmove
    exact absurd hmove (by simp)

/-- The state is reached by a run in which nothing joins a room on connection `k`. -/
def ReachedWithout (k : Conn) (s : ServerState) : Prop :=
  ∃ history, Traced server (.initial .empty) history (.quiet s) ∧ JoinsNothing k history

/-- A handler of another connection runs. -/
theorem ReachedWithout.serve1 {k t : Conn} {s : ServerState} (h : ReachedWithout k s) (ht : t ≠ k)
    {env : Env} {i : Input} (hadmits : admits s t i) : ReachedWithout k (serve1 env t i s) := by
  obtain ⟨history, htraced, hnothing⟩ := h
  refine ⟨_, htraced.run env rfl hadmits, hnothing.append (joinsNothing_of_ne (t := t) ?_ ht)⟩
  intro entry hentry
  rcases List.mem_cons.mp hentry with rfl | hentry
  · rfl
  · exact thread_of_mem_restEntries hentry

/-- Alice and bob are in the lobby … -/
def aliceAndBobInLobby : ServerState := serve1 ⟨0, true⟩ 1 (roomRequest "join" "lobby") bobInLobby

/-- … when somebody connects on connection 3. -/
def threeConnections : ServerState := serve1 ⟨0, true⟩ 3 .connected aliceAndBobInLobby

theorem aliceAndBobInLobby_reached : ReachedWithout 3 aliceAndBobInLobby := by
  have hinitial : ReachedWithout 3 (.initial .empty) := ⟨[], .init, fun _ hentry => absurd hentry (by simp)⟩
  have htwo : ReachedWithout 3 twoConnections :=
    (hinitial.serve1 (t := 1) (by decide) (admits_connected (by decide +kernel))).serve1 (by decide)
      (admits_connected (by decide +kernel))
  have hnamed : ReachedWithout 3 aliceAndBob :=
    (htwo.serve1 (t := 1) (by decide) (admits_request (by decide +kernel) _)).serve1 (by decide)
      (admits_request (by decide +kernel) _)
  have hlobby : ReachedWithout 3 bobInLobby :=
    (hnamed.serve1 (t := 2) (by decide) (admits_request (by decide +kernel) _)).serve1 (by decide)
      (admits_request (by decide +kernel) _)
  exact hlobby.serve1 (by decide) (admits_request (by decide +kernel) _)

theorem threeConnections_reached : ReachedWithout 3 threeConnections := by
  obtain ⟨history, htraced, hnothing⟩ := aliceAndBobInLobby_reached
  have hadmits : server.admits aliceAndBobInLobby 3 .connected := admits_connected (by decide +kernel)
  have hconnects := htraced.run ⟨0, true⟩ rfl hadmits
  exact ⟨_, hconnects,
    hnothing.append (joinsNothing_run _ (Prog.only_perform fun _ _ hop => by cases hop))⟩

theorem program_loginRequest (t : Conn) (username : String) :
    server.program t (loginRequest username) = login t (ascii username) := by
  let request : JsonObject :=
    ((∅ : JsonObject).insert (ascii "type") (ascii "login")).insert (ascii "username") (ascii username)
  have htype : fieldOrEmpty request "type" = ascii "login" := by
    simp (disch := decide) only [request, fieldOrEmpty_insert_self, fieldOrEmpty_insert_of_ne]
  have hname : fieldOrEmpty request "username" = ascii username := fieldOrEmpty_insert_self ..
  show handleRequest t request = _
  rw [handleRequest_login htype, hname]

/-- A login joins no room. -/
theorem login_joinsNothing (t : Conn) (username : Bytes) :
    (login t username).Only fun op => ∀ room u, op ≠ .joinRoom room u := by
  have hsend : ∀ object, (sendJson t object).Only fun op => ∀ room u, op ≠ .joinRoom room u :=
    fun object => Prog.only_perform fun room u hop => by cases hop
  refine ⟨(fun _ _ hop => nomatch hop), fun current => ?_⟩
  show Prog.Only _ (if _ then _ else _)
  split_ifs
  · exact hsend _
  · refine ⟨(fun _ _ hop => nomatch hop), fun result => ?_⟩
    cases result with
    | some error => exact hsend _
    | none => exact ⟨(fun _ _ hop => nomatch hop), fun _ => hsend _⟩

/-- **The event follows the name.**  Alice's handler has taken its snapshot and saved the message when bob logs
out and somebody else logs in as bob on connection 3, who never joined the lobby and gets the message. -/
theorem event_follows_the_name :
    ∃ history c before s, Traced server (.initial .empty) history c ∧
      history = before ++ [⟨1, s, .act ⟨.send 3
        ((Save.roomMessage (ascii "lobby") (ascii "alice") (ascii "hi") 7).event 1), ()⟩⟩] ∧
      (s.connections 3).tcpState = .kConnected ∧
      (∃ since, LoggedIn before 3 (ascii "bob") since) ∧ ∀ room u, ¬ Joins before 3 room u := by
  obtain ⟨earlier, htraced, hnothing⟩ := threeConnections_reached
  have hmembers : threeConnections.roomManager.membersForMessage (ascii "lobby") (ascii "alice") =
      .ok [ascii "alice", ascii "bob"] := by decide +kernel
  have hid : threeConnections.storage.nextId = 1 := by decide +kernel
  obtain ⟨done, hsaves⟩ := traced_savesRoomMessage (t := 1) htraced ⟨7, true⟩ (ascii "hi") rfl
    (by decide +kernel) (by decide +kernel) (by decide) (by decide) hmembers rfl
  rw [hid] at hsaves
  let saved := (exec ⟨7, true⟩ (.saveRoomMessage (ascii "lobby") (ascii "alice") (ascii "hi") 7)
    threeConnections).2
  have hadmits : server.admits saved 2 logoutRequest := admits_request (by decide +kernel) _
  have hlogout := hsaves.run ⟨7, true⟩ (t := 2) rfl hadmits
  have hadmits' : server.admits (serve1 ⟨7, true⟩ 2 logoutRequest saved) 3 (loginRequest "bob") :=
    admits_request (by decide +kernel) _
  have hlogin := hlogout.run ⟨7, true⟩ (t := 3) rfl hadmits'
  have hfound := hlogin.perform ⟨7, true⟩ (r := [1, 3]) (by decide +kernel)
  have hfirst := hfound.perform ⟨7, true⟩ (r := ()) rfl
  have hsecond := hfirst.perform ⟨7, true⟩ (r := ()) rfl
  have hbob : (serve1 ⟨7, true⟩ 3 (loginRequest "bob") (serve1 ⟨7, true⟩ 2 logoutRequest
      saved)).userManager.users[ascii "bob"]? = some 3 := by decide +kernel
  have hlogged := (roomsInOrder_of_traced hfirst).logged (u := ascii "bob") (k := 3) hbob
  refine ⟨_, _, _, _, hsecond, rfl, by decide +kernel, hlogged, fun room u => JoinsNothing.not_joins ?_ room u⟩
  refine (((hnothing.append (joinsNothing_of_ne (t := 1) ?_ (by decide))).append
    (joinsNothing_of_ne (t := 2) ?_ (by decide))).append (joinsNothing_run _ ?_)).append
    (joinsNothing_of_ne (t := 1) ?_ (by decide)) |>.append (joinsNothing_of_ne (t := 1) ?_ (by decide))
  · simp [savingEntries, snapshot]
  · intro entry hentry
    rcases List.mem_cons.mp hentry with rfl | hentry
    · rfl
    · exact thread_of_mem_restEntries hentry
  · rw [program_loginRequest]
    exact login_joinsNothing 3 _
  · simp
  · simp

end ChatService
