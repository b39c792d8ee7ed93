import ChatService.Foundation.Histories
import ChatService.Server.SentOrder

/-!
# Who gets a room message

A room message goes to the connections of those who were members when the sender's handler took its snapshot,
as they are registered after the save.  A user who stays logged in on one connection, stays connected and
stays a member from the snapshot on is among them, so the event is sent on that connection; by the order of
the events it is sent there only once.

`Delivery.Progress` says how far the handler has come for such a user; it looks back to the snapshot, so it is
an invariant of the history.
-/

namespace ChatService

open AtomicProgram SetTables

/-- Thread `t` has not left its handler. -/
def Within (t : Conn) (during : History) : Prop :=
  ∀ entry ∈ during, entry.thread = t → entry.move ≠ .finish

/-- User `v` is logged in on connection `k`, which is connected, and a member of the room. -/
structure Stays (v : Bytes) (k : Conn) (room : Bytes) (s : ServerState) : Prop where
  online : s.userManager.users[v]? = some k
  connected : (s.connections k).tcpState = .kConnected
  member : (v, room) ∈ s.roomManager.membership.members

/-- Thread `t` has saved this message of the room. -/
def SavedIn (t : Conn) (room : Bytes) (during : History) (id : ℤ) (save : Save) : Prop :=
  (∃ sender content createdAt, save = .roomMessage room sender content createdAt) ∧
    ∃ entry ∈ during, entry.thread = t ∧ ∃ event, entry.move = .act event ∧ Saves id event save

namespace Delivery

/-- How far the handler has come with the user who stays. -/
def Progress (t : Conn) (v : Bytes) (k : Conn) (room : Bytes) (during : History) (sent : List Sent) :
    Delivery → Prop
  | listed room' _ members => (room' = room → v ∈ members) ∧ ∀ id save, ¬ SavedIn t room during id save
  | savedRoom id save members => ∀ id' save', SavedIn t room during id' save' →
      id' = id ∧ save' = save ∧ v ∈ members
  | sending id save remaining => ∀ id' save', SavedIn t room during id' save' →
      id' = id ∧ save' = save ∧ (k ∈ remaining ∨ ⟨k, save.event id, true⟩ ∈ sent)
  | _ => ∀ id save, ¬ SavedIn t room during id save

end Delivery

section

variable {t t' k : Conn} {v room : Bytes} {during : History} {s s' : ServerState} {phase : Delivery}
  {sent sent' : List Sent}

/-- What is saved is saved by an entry that was there, or by the new one. -/
theorem SavedIn.of_snoc {entry : Entry Conn Input Op Op.Response ServerState} {id : ℤ} {save : Save}
    (h : SavedIn t room (during ++ [entry]) id save) :
    SavedIn t room during id save ∨
      entry.thread = t ∧ ∃ event, entry.move = .act event ∧ Saves id event save := by
  obtain ⟨hroom, entry', hentry', hsaved⟩ := h
  rcases List.mem_append.mp hentry' with hold | hnew
  · exact .inl ⟨hroom, entry', hold, hsaved⟩
  · rw [List.mem_singleton.mp hnew] at hsaved
    exact .inr hsaved

/-- Moves that save no room message, and send what they send. -/
theorem Delivery.Progress.mono (h : phase.Progress t v k room during sent)
    {entry : Entry Conn Input Op Op.Response ServerState}
    (hentry : ∀ {id save}, SavedIn t room (during ++ [entry]) id save → SavedIn t room during id save)
    (hsent : ∀ e ∈ sent, e ∈ sent') : phase.Progress t v k room (during ++ [entry]) sent' := by
  cases phase with
  | listed room' username members => exact ⟨h.1, fun id save hsaved => h.2 id save (hentry hsaved)⟩
  | savedRoom id save members => exact fun id' save' hsaved => h id' save' (hentry hsaved)
  | sending id save remaining =>
    intro id' save' hsaved
    obtain ⟨hid, hsave, hk⟩ := h id' save' (hentry hsaved)
    exact ⟨hid, hsave, hk.imp_right (hsent _)⟩
  | _ => exact fun id save hsaved => h id save (hentry hsaved)

/-- A handler with no message in hand has saved none. -/
theorem Delivery.Progress.of_free (h : phase.Progress t v k room during sent) (hfree : phase.Free)
    (id : ℤ) (save : Save) : ¬ SavedIn t room during id save := by
  cases phase with
  | idle => exact h id save
  | named username => exact h id save
  | _ => exact hfree.elim

/-- A handler that is done has sent the event of what it saved. -/
theorem Delivery.Progress.sent_of_done (h : phase.Progress t v k room during sent) (hdone : phase.Done)
    {id : ℤ} {save : Save} (hsaved : SavedIn t room during id save) : ⟨k, save.event id, true⟩ ∈ sent := by
  cases phase with
  | listed room' username members => exact hdone.elim
  | savedRoom id' save' members => exact hdone.elim
  | sending id' save' remaining =>
    obtain rfl : remaining = [] := hdone
    obtain ⟨rfl, rfl, hk⟩ := h id save hsaved
    exact hk.resolve_left (List.not_mem_nil)
  | _ => exact absurd hsaved (h id save)

/-- An action other than a save of a room message saves none. -/
theorem savedIn_of_other {op : Op} {response : op.Response}
    (hop : ∀ room sender content createdAt, op ≠ .saveRoomMessage room sender content createdAt) {id : ℤ}
    {save : Save} (h : SavedIn t room (during ++ [⟨t', s, .act ⟨op, response⟩⟩]) id save) :
    SavedIn t room during id save := by
  obtain ⟨sender, content, createdAt, rfl⟩ := h.1
  rcases h.of_snoc with hold | ⟨-, event, hevent, hsaves⟩
  · exact hold
  · obtain rfl := Move.act.inj hevent
    exact absurd (congrArg Event.op hsaves) (hop room sender content createdAt)

/-- So none is saved if there was none. -/
theorem not_savedIn_of_other {c : Conn} {op : Op} (response : op.Response)
    (hop : ∀ room sender content createdAt, op ≠ .saveRoomMessage room sender content createdAt)
    (hnone : ∀ id save, ¬ SavedIn t room during id save) (id : ℤ) (save : Save) :
    ¬ SavedIn t room (during ++ [⟨c, s, .act ⟨op, response⟩⟩]) id save :=
  fun hsaved => hnone id save (savedIn_of_other hop hsaved)

/-- The user who stays is in the snapshot, … -/
theorem Stays.mem_members (h : Stays v k room s) {username : Bytes} {members : List Bytes}
    (hmembers : s.roomManager.membersForMessage room username = .ok members) : v ∈ members :=
  ((RoomManager.membersForMessage_eq_ok hmembers).2 v).mpr h.member

/-- … and the user's connection is found. -/
theorem Stays.mem_findMany (h : Stays v k room s) {members : List Bytes} (hv : v ∈ members) :
    k ∈ s.userManager.findMany members :=
  List.mem_filterMap.mpr ⟨v, hv, h.online⟩

/-- The message that is saved is for the members of the snapshot. -/
theorem progress_save {room' sender content : Bytes} {createdAt : ℤ} {members : List Bytes}
    (h : (Delivery.listed room' sender members).Progress t v k room during sent) (saved : Option ℤ) :
    ((Delivery.listed room' sender members).next (.saveRoomMessage room' sender content createdAt) saved).Progress
      t v k room (during ++ [⟨t, s, .act ⟨.saveRoomMessage room' sender content createdAt, saved⟩⟩]) sent' := by
  obtain ⟨hmembers, hnone⟩ := h
  have hnew : ∀ {id : ℤ} {save : Save}, SavedIn t room (during ++ [⟨t, s, .act
      ⟨.saveRoomMessage room' sender content createdAt, saved⟩⟩]) id save →
      Saves id ⟨.saveRoomMessage room' sender content createdAt, saved⟩ save := by
    intro id save hsaved
    rcases hsaved.of_snoc with hold | ⟨-, event, hevent, hsaves⟩
    · exact absurd hold (hnone id save)
    · obtain rfl := Move.act.inj hevent
      exact hsaves
  cases saved with
  | none =>
    intro id save hsaved
    obtain ⟨sender', content', createdAt', rfl⟩ := hsaved.1
    exact absurd (hnew hsaved) (by simp [Saves])
  | some id =>
    intro id' save' hsaved
    obtain ⟨sender', content', createdAt', rfl⟩ := hsaved.1
    have hsame := hnew hsaved
    simp only [Saves, Event.mk.injEq, Op.saveRoomMessage.injEq] at hsame
    obtain ⟨⟨hroom, rfl, rfl, rfl⟩, hid⟩ := hsame
    exact ⟨by simpa using hid.symm, by rw [hroom], hmembers hroom⟩

/-- An event goes out on the next connection: it is sent, if it is that of the user who stays. -/
theorem progress_send {id : ℤ} {save : Save} {connection : Conn} {remaining : List Conn}
    (h : (Delivery.sending id save (connection :: remaining)).Progress t v k room during s.sent)
    (hstays : Stays v k room s) (env : Env) :
    (Delivery.sending id save remaining).Progress t v k room
      (during ++ [⟨t, s, .act ⟨.send connection (save.event id), ()⟩⟩])
      (exec env (.send connection (save.event id)) s).2.sent := by
  intro id' save' hsaved
  obtain ⟨hid, hsave, hk⟩ := h id' save' (savedIn_of_other (fun _ _ _ _ hop => by cases hop) hsaved)
  refine ⟨hid, hsave, ?_⟩
  rcases hk with hk | hk
  · rcases List.mem_cons.mp hk with rfl | hk
    · -- the event goes out on the user's connection now, which is connected
      have hqueued : decide ((s.connections k).tcpState = .kConnected) = true :=
        decide_eq_true hstays.connected
      refine .inr (List.mem_append_right _ ?_)
      rw [hqueued]
      exact List.mem_singleton_self _
    · exact .inl hk
  · exact .inr (List.mem_append_left _ hk)

/-- **Each action of the handler brings it on.** -/
theorem progress_act (h : phase.Progress t v k room during s.sent) (hstays : Stays v k room s) {op : Op}
    (hallowed : op.DeliveredIn t phase) (env : Env) :
    (phase.next op (exec env op s).1).Progress t v k room
      (during ++ [⟨t, s, .act ⟨op, (exec env op s).1⟩⟩]) (exec env op s).2.sent := by
  have hkept : ∀ e ∈ s.sent, e ∈ (exec env op s).2.sent := by
    intro e he
    rw [sent_exec]
    exact List.mem_append_left _ he
  cases op with
  | saveRoomMessage room' sender content createdAt =>
    obtain ⟨members, rfl⟩ := hallowed
    exact progress_save h _
  | membersForMessage room' username =>
    obtain rfl : phase = .named username := hallowed
    have hnone := not_savedIn_of_other (c := t) (s := s)
      (exec env (.membersForMessage room' username) s).1 (fun _ _ _ _ hop => by cases hop) h
    have hresponse : ((exec env (.membersForMessage room' username) s).1 : Except Bytes (List Bytes)) =
      s.roomManager.membersForMessage room' username := rfl
    generalize ((exec env (.membersForMessage room' username) s).1 : Except Bytes (List Bytes)) = response
      at hnone hresponse ⊢
    cases response with
    | error error => exact hnone
    | ok members =>
      refine ⟨?_, hnone⟩
      rintro rfl
      exact hstays.mem_members hresponse.symm
  | userFindMany usernames =>
    obtain ⟨id, save, rfl⟩ := hallowed
    intro id' save' hsaved
    obtain ⟨hid, hsave, hv⟩ := h id' save' (savedIn_of_other (fun _ _ _ _ hop => by cases hop) hsaved)
    exact ⟨hid, hsave, .inl (hstays.mem_findMany hv)⟩
  | send connection payload =>
    cases phase with
    | listed room' username members => exact hallowed.elim
    | savedRoom id save members => exact hallowed.elim
    | sending id save remaining =>
      obtain ⟨hhead, rfl⟩ := hallowed
      obtain ⟨rest, rfl⟩ := List.head?_eq_some_iff.mp hhead
      exact progress_send h hstays env
    | _ => exact not_savedIn_of_other _ (fun _ _ _ _ hop => by cases hop) h
  | currentTimeSeconds => exact h.mono (savedIn_of_other fun _ _ _ _ hop => by cases hop) hkept
  | userFind username => exact h.mono (savedIn_of_other fun _ _ _ _ hop => by cases hop) hkept
  | username connection =>
    obtain ⟨-, rfl⟩ := hallowed
    have hnone := not_savedIn_of_other (c := t) (s := s) (exec env (.username connection) s).1
      (fun _ _ _ _ hop => by cases hop) h
    show (if (s.connections connection).username = [] then Delivery.idle else .named _).Progress
      _ _ _ _ _ _
    split_ifs
    · exact hnone
    · exact hnone
  | savePrivateMessage sender receiver content createdAt =>
    obtain rfl : phase = .named sender := hallowed
    have hnone := not_savedIn_of_other (c := t) (s := s)
      (exec env (.savePrivateMessage sender receiver content createdAt) s).1
      (fun _ _ _ _ hop => by cases hop) h
    generalize ((exec env (.savePrivateMessage sender receiver content createdAt) s).1 : Option ℤ) = saved
      at hnone ⊢
    cases saved with
    | none => exact hnone
    | some id => exact hnone
  | _ => exact not_savedIn_of_other _ (fun _ _ _ _ hop => by cases hop) (h.of_free hallowed)

end

/-! ### The history since the snapshot -/

/-- The snapshot of the members that thread `t` takes. -/
def snapshot (t : Conn) (s : ServerState) (room username : Bytes) (members : List Bytes) :
    Entry Conn Input Op Op.Response ServerState :=
  ⟨t, s, .act ⟨.membersForMessage room username, .ok members⟩⟩

/-- In the handler it is in, thread `t` has taken this snapshot; `during` is what happened since. -/
def Snapped (history : History) (t : Conn) (room username : Bytes) (members : List Bytes)
    (during : History) : Prop :=
  (∃ earlier s, history = earlier ++ snapshot t s room username members :: during) ∧ Within t during

/-- Thread `t` has looked `v` up and found connection `k`. -/
def Found (t : Conn) (v : Bytes) (k : Conn) (during : History) : Prop :=
  ∃ entry ∈ during, (∃ usernames connections, entry.thread = t ∧
    entry.move = .act ⟨.userFindMany usernames, connections⟩) ∧ entry.before.userManager.users[v]? = some k

/-- Where the message in hand comes from: its members are those of a snapshot of its room, its connections
those that were found for them. -/
def Delivery.Recalls (history : History) (t : Conn) : Delivery → Prop
  | listed room username members => ∃ during, Snapped history t room username members during
  | savedRoom _ save members => ∃ room content createdAt during,
      save = .roomMessage room save.sender content createdAt ∧
        Snapped history t room save.sender members during
  | sending _ save remaining => ∃ room content createdAt members during,
      save = .roomMessage room save.sender content createdAt ∧
        Snapped history t room save.sender members during ∧
        ∀ k ∈ remaining, ∃ v ∈ members, Found t v k during
  | _ => True

/-- What holds of every handler that has taken a snapshot. -/
structure Broadcasting (history : History) (s : ServerState) (P : Conn → Delivery) : Prop where
  progress : ∀ {earlier during t s₀ room username members v k},
    history = earlier ++ snapshot t s₀ room username members :: during → Within t during →
    (∀ entry ∈ snapshot t s₀ room username members :: during, Stays v k room entry.before) →
    (P t).Progress t v k room during s.sent
  recalls : ∀ t, (P t).Recalls history t

section

variable {history : History} {s s' : ServerState} {P P' : Conn → Delivery} {t : Conn}
  {m : AtomicProgram.Move Input Op Op.Response}

/-- Nothing that was sent is taken back. -/
theorem sent_advances (h : delivery.Advances server s P t m s' P') : ∀ e ∈ s.sent, e ∈ s'.sent := by
  intro e he
  cases m with
  | begin i =>
    obtain ⟨-, -, rfl, -⟩ := h
    cases i <;> exact he
  | act event =>
    obtain ⟨-, ⟨env, -, rfl⟩, -⟩ := h
    show e ∈ (exec env event.op s).2.sent
    rw [sent_exec]
    exact List.mem_append_left _ he
  | finish =>
    obtain ⟨-, rfl, -⟩ := h
    exact he

/-- A move leaves the phases of the other threads. -/
theorem phase_advances (h : delivery.Advances server s P t m s' P') {t' : Conn} (ht : t' ≠ t) :
    P' t' = P t' := by
  cases m with
  | begin i =>
    obtain ⟨-, -, -, rfl⟩ := h
    rfl
  | act event =>
    obtain ⟨-, -, rfl⟩ := h
    exact Function.update_of_ne ht ..
  | finish =>
    obtain ⟨-, -, rfl⟩ := h
    exact Function.update_of_ne ht ..

theorem Within.snoc {during : History} (h : Within t during)
    {entry : Entry Conn Input Op Op.Response ServerState}
    (hentry : entry.thread = t → entry.move ≠ .finish) : Within t (during ++ [entry]) := by
  intro e he
  rcases List.mem_append.mp he with he | he
  · exact h e he
  · rw [List.mem_singleton.mp he]
    exact hentry

/-- The handler that has taken the snapshot just now. -/
theorem progress_snapshot {room username : Bytes} {members : List Bytes}
    (h : delivery.Advances server s P t (.act ⟨.membersForMessage room username, .ok members⟩) s' P')
    {v : Bytes} {k : Conn} (hstays : Stays v k room s) : (P' t).Progress t v k room [] s'.sent := by
  obtain ⟨-, ⟨env, hresponse, -⟩, rfl⟩ := h
  rw [Function.update_self]
  refine ⟨fun _ => hstays.mem_members hresponse.symm, fun id save hsaved => ?_⟩
  obtain ⟨-, entry, hentry, -⟩ := hsaved
  exact absurd hentry (by simp)

/-- A later move. -/
theorem progress_advances (h : delivery.Advances server s P t m s' P') {t' : Conn} {v : Bytes} {k : Conn}
    {room : Bytes} {during : History} (hprogress : (P t').Progress t' v k room during s.sent)
    (hstays : Stays v k room s) (hfinish : t = t' → m ≠ .finish) :
    (P' t').Progress t' v k room (during ++ [⟨t, s, m⟩]) s'.sent := by
  by_cases ht : t' = t
  · subst ht
    cases m with
    | begin i =>
      have hsent := sent_advances h
      obtain ⟨-, -, -, rfl⟩ := h
      refine hprogress.mono (fun hsaved => ?_) hsent
      rcases hsaved.of_snoc with hold | ⟨-, event, hevent, -⟩
      · exact hold
      · exact absurd hevent (by simp)
    | act event =>
      obtain ⟨hallowed, ⟨env, hresponse, rfl⟩, rfl⟩ := h
      obtain ⟨op, response⟩ := event
      obtain rfl : response = (exec env op s).1 := hresponse
      rw [Function.update_self]
      exact progress_act hprogress hstays hallowed env
    | finish => exact absurd rfl (hfinish rfl)
  · rw [phase_advances h ht]
    refine hprogress.mono (fun hsaved => ?_) (sent_advances h)
    rcases hsaved.of_snoc with hold | ⟨hthread, -⟩
    · exact hold
    · exact absurd hthread.symm ht

theorem Snapped.snoc {room username : Bytes} {members : List Bytes} {during : History}
    (h : Snapped history t room username members during)
    {entry : Entry Conn Input Op Op.Response ServerState}
    (hentry : entry.thread = t → entry.move ≠ .finish) :
    Snapped (history ++ [entry]) t room username members (during ++ [entry]) := by
  obtain ⟨⟨earlier, s₀, rfl⟩, hwithin⟩ := h
  exact ⟨⟨earlier, s₀, by simp⟩, hwithin.snoc hentry⟩

theorem Found.snoc {v : Bytes} {k : Conn} {during : History} (h : Found t v k during)
    (entry : Entry Conn Input Op Op.Response ServerState) : Found t v k (during ++ [entry]) := by
  obtain ⟨e, he, hfound⟩ := h
  exact ⟨e, List.mem_append_left _ he, hfound⟩

/-- It is recalled as long as the handler has not ended. -/
theorem Delivery.Recalls.snoc {phase : Delivery} (h : phase.Recalls history t)
    {entry : Entry Conn Input Op Op.Response ServerState}
    (hentry : entry.thread = t → entry.move ≠ .finish) : phase.Recalls (history ++ [entry]) t := by
  cases phase with
  | listed room username members =>
    obtain ⟨during, hsnapped⟩ := h
    exact ⟨_, hsnapped.snoc hentry⟩
  | savedRoom id save members =>
    obtain ⟨room, content, createdAt, during, hsave, hsnapped⟩ := h
    exact ⟨room, content, createdAt, _, hsave, hsnapped.snoc hentry⟩
  | sending id save remaining =>
    obtain ⟨room, content, createdAt, members, during, hsave, hsnapped, hfound⟩ := h
    refine ⟨room, content, createdAt, members, _, hsave, hsnapped.snoc hentry, fun k hk => ?_⟩
    obtain ⟨v, hv, hvk⟩ := hfound k hk
    exact ⟨v, hv, hvk.snoc entry⟩
  | _ => exact trivial

/-- Each action of the handler. -/
theorem recalls_act {phase : Delivery} (h : phase.Recalls history t) {op : Op}
    (hallowed : op.DeliveredIn t phase) (env : Env) :
    (phase.next op (exec env op s).1).Recalls (history ++ [⟨t, s, .act ⟨op, (exec env op s).1⟩⟩]) t := by
  cases op with
  | username connection =>
    show (if (s.connections connection).username = [] then Delivery.idle else .named _).Recalls _ _
    split_ifs <;> exact trivial
  | membersForMessage room username =>
    generalize ((exec env (.membersForMessage room username) s).1 : Except Bytes (List Bytes)) = response
    cases response with
    | error error => exact trivial
    | ok members => exact ⟨[], ⟨history, s, rfl⟩, fun e he => absurd he (by simp)⟩
  | currentTimeSeconds => exact h.snoc fun _ => by simp
  | userFind username => exact h.snoc fun _ => by simp
  | savePrivateMessage sender receiver content createdAt =>
    generalize ((exec env (.savePrivateMessage sender receiver content createdAt) s).1 : Option ℤ) = saved
    cases saved with
    | none => exact trivial
    | some id => exact trivial
  | saveRoomMessage room sender content createdAt =>
    obtain ⟨members, rfl⟩ := hallowed
    obtain ⟨during, hsnapped⟩ := h
    generalize ((exec env (.saveRoomMessage room sender content createdAt) s).1 : Option ℤ) = saved
    cases saved with
    | none => exact trivial
    | some id => exact ⟨room, content, createdAt, _, rfl, hsnapped.snoc fun _ => by simp⟩
  | userFindMany usernames =>
    obtain ⟨id, save, rfl⟩ := hallowed
    obtain ⟨room, content, createdAt, during, hsave, hsnapped⟩ := h
    refine ⟨room, content, createdAt, usernames, _, hsave, hsnapped.snoc fun _ => by simp, fun k hk => ?_⟩
    obtain ⟨v, hv, hvk⟩ := List.mem_filterMap.mp hk
    exact ⟨v, hv, _, List.mem_append_right _ (List.mem_singleton_self _), ⟨usernames, _, rfl, rfl⟩, hvk⟩
  | send connection payload =>
    cases phase with
    | sending id save remaining =>
      obtain ⟨room, content, createdAt, members, during, hsave, hsnapped, hfound⟩ := h
      refine ⟨room, content, createdAt, members, _, hsave, hsnapped.snoc fun _ => by simp, fun k hk => ?_⟩
      obtain ⟨v, hv, hvk⟩ := hfound k (List.mem_of_mem_tail hk)
      exact ⟨v, hv, hvk.snoc _⟩
    | listed room username members => exact hallowed.elim
    | savedRoom id save members => exact hallowed.elim
    | _ => exact trivial
  | _ => exact trivial

/-- Each move, of whichever thread. -/
theorem recalls_advances (h : delivery.Advances server s P t m s' P') {t' : Conn}
    (hrecalls : (P t').Recalls history t') : (P' t').Recalls (history ++ [⟨t, s, m⟩]) t' := by
  by_cases ht : t' = t
  · subst ht
    cases m with
    | begin i =>
      obtain ⟨-, -, -, rfl⟩ := h
      exact hrecalls.snoc fun _ => by simp
    | act event =>
      obtain ⟨hallowed, ⟨env, hresponse, rfl⟩, rfl⟩ := h
      obtain ⟨op, response⟩ := event
      obtain rfl : response = (exec env op s).1 := hresponse
      rw [Function.update_self]
      exact recalls_act hrecalls hallowed env
    | finish =>
      obtain ⟨-, -, rfl⟩ := h
      rw [Function.update_self]
      exact trivial
  · rw [phase_advances h ht]
    exact hrecalls.snoc fun hsame => absurd hsame.symm ht

/-- **Every move keeps to it.** -/
theorem Broadcasting.step (h : Broadcasting history s P) (hadvances : delivery.Advances server s P t m s' P') :
    Broadcasting (history ++ [⟨t, s, m⟩]) s' P' where
  progress := by
    intro earlier during t' s₀ room username members v k hhistory hwithin hstays
    rcases List.eq_nil_or_concat during with rfl | ⟨during, last, rfl⟩
    · obtain ⟨-, hlast⟩ := List.append_inj' hhistory rfl
      obtain ⟨rfl, rfl, rfl⟩ : t = t' ∧ s = s₀ ∧
          m = .act ⟨.membersForMessage room username, .ok members⟩ := by
        simpa [snapshot] using hlast
      exact progress_snapshot hadvances (hstays _ List.mem_cons_self)
    · rw [List.concat_eq_append] at hhistory hwithin hstays ⊢
      rw [← List.cons_append, ← List.append_assoc] at hhistory
      obtain ⟨hbefore, hlast⟩ := List.append_inj' hhistory rfl
      obtain rfl : (⟨t, s, m⟩ : Entry Conn Input Op Op.Response ServerState) = last :=
        List.singleton_inj.mp hlast
      have hmem : ∀ entry ∈ snapshot t' s₀ room username members :: during,
          entry ∈ snapshot t' s₀ room username members :: (during ++ [⟨t, s, m⟩]) := by
        intro entry hentry
        rw [← List.cons_append]
        exact List.mem_append_left _ hentry
      have hbefore' := h.progress hbefore (fun entry hentry => hwithin entry (List.mem_append_left _ hentry))
        fun entry hentry => hstays entry (hmem entry hentry)
      exact progress_advances hadvances hbefore' (hstays ⟨t, s, m⟩ (by simp)) (hwithin ⟨t, s, m⟩ (by simp))
  recalls t' := recalls_advances hadvances (h.recalls t')

end

/-- What any run reaches. -/
theorem broadcasting_of_traced {storage : ChatStorage} {history : History}
    {c : Config Conn Input Op Op.Response ServerState}
    (h : Traced server (.initial storage) history c) :
    Broadcasting history c.shared (delivery.phases c) ∧ delivery.Following c := by
  have hinit : Broadcasting [] (.initial storage) fun _ => delivery.resting := by
    exact ⟨fun hhistory => absurd hhistory (by simp), fun _ => trivial⟩
  exact Typestate.history_invariant server_delivers hinit (fun h hadvances => h.step hadvances) h

/-- Every room message that is saved has its snapshot, in the same handler. -/
theorem snapshot_of_save {storage : ChatStorage} {history : History}
    {c : Config Conn Input Op Op.Response ServerState} (h : Traced server (.initial storage) history c)
    {before after : History} {t : Conn} {s : ServerState} {room sender content : Bytes} {createdAt : ℤ}
    {response : Option ℤ}
    (hhistory : history =
      before ++ ⟨t, s, .act ⟨.saveRoomMessage room sender content createdAt, response⟩⟩ :: after) :
    ∃ earlier s₀ members between,
      before = earlier ++ snapshot t s₀ room sender members :: between ∧ Within t between := by
  obtain ⟨c₁, c₂, hrun, -, hmove⟩ := h.split hhistory
  obtain ⟨hbroadcasting, hfollowing⟩ := broadcasting_of_traced hrun
  obtain ⟨⟨members, hlisted⟩, -⟩ := (hfollowing.moves server_delivers hmove).2
  have hrecalls := hbroadcasting.recalls t
  rw [hlisted] at hrecalls
  obtain ⟨between, ⟨earlier, s₀, hsplit⟩, hwithin⟩ := hrecalls
  exact ⟨earlier, s₀, members, between, hsplit, hwithin⟩

/-- Where the order keeps two entries apart, there is at most one of them. -/
theorem countP_le_one {α : Type*} {R : α → α → Prop} {p : α → Bool} {l : List α} (h : l.Pairwise R)
    (hR : ∀ {x y}, p x = true → p y = true → ¬ R x y) : l.countP p ≤ 1 := by
  induction l with
  | nil => simp
  | cons x l ih =>
    obtain ⟨hx, hl⟩ := List.pairwise_cons.mp h
    by_cases hp : p x = true
    · have hnone : l.countP p = 0 := List.countP_eq_zero.mpr fun y hy hpy => hR hp hpy (hx y hy)
      rw [List.countP_cons_of_pos hp, hnone]
    · rw [List.countP_cons_of_neg hp]
      exact ih hl

/-- Nothing that was sent is taken back by a run that goes on. -/
theorem sent_path {c c' : Config Conn Input Op Op.Response ServerState}
    (hfollowing : delivery.Following c) (h : Path server (fun _ _ => True) c c') :
    ∀ e ∈ c.shared.sent, e ∈ c'.shared.sent :=
  (Typestate.path_invariant (K := fun s _ => ∀ e ∈ c.shared.sent, e ∈ s.sent) server_delivers
    (fun hsent hadvances e he => sent_advances hadvances e (hsent e he)) hfollowing (fun _ he => he) h).1

/-- No connection gets an event twice. -/
theorem countP_event_le_one {sent : List Sent} (h : sent.Pairwise SentBefore)
    (room sender content : Bytes) (createdAt id : ℤ) (k : Conn) :
    sent.countP (fun e => decide (e.connection = k ∧
      e.payload = (Save.roomMessage room sender content createdAt).event id)) ≤ 1 := by
  refine countP_le_one h fun {e e'} he he' hbefore => ?_
  obtain ⟨hk, hpayload⟩ := of_decide_eq_true he
  obtain ⟨hk', hpayload'⟩ := of_decide_eq_true he'
  have hlt : id < id := hbefore id id sender (hk.trans hk'.symm) ⟨room, content, createdAt, hpayload⟩
    ⟨room, content, createdAt, hpayload'⟩
  exact absurd hlt (lt_irrefl id)

/-- **A member is sent the event once**: if he stays logged in on one connection, connected and a member, from the
snapshot until the handler has sent what it sends, then however the run goes on. -/
theorem count_event_of_stays {storage : ChatStorage} {history : History}
    {c : Config Conn Input Op Op.Response ServerState} (hrun : Traced server (.initial storage) history c)
    {before after earlier between : History} {t : Conn} {s s₀ : ServerState} {room sender content : Bytes}
    {createdAt id : ℤ} {members : List Bytes}
    (hhistory : history = before ++
      ⟨t, s, .act ⟨.saveRoomMessage room sender content createdAt, some id⟩⟩ :: after)
    (hsplit : before = earlier ++ snapshot t s₀ room sender members :: between) (hbetween : Within t between)
    (hafter : Within t after) (hthread : ∃ i done, c.threads t = some ⟨i, done, .ret ()⟩) {v : Bytes} {k : Conn}
    (hstays : ∀ entry ∈ snapshot t s₀ room sender members :: between ++
      ⟨t, s, .act ⟨.saveRoomMessage room sender content createdAt, some id⟩⟩ :: after, Stays v k room entry.before)
    {c' : Config Conn Input Op Op.Response ServerState} (hpath : Path server (fun _ _ => True) c c') :
    c'.shared.sent.count ⟨k, (Save.roomMessage room sender content createdAt).event id, true⟩ = 1 := by
  obtain ⟨i, done, hthread⟩ := hthread
  obtain ⟨hbroadcasting, hfollowing⟩ := broadcasting_of_traced hrun
  let save : Entry Conn Input Op Op.Response ServerState :=
    ⟨t, s, .act ⟨.saveRoomMessage room sender content createdAt, some id⟩⟩
  have hwithin : Within t (between ++ save :: after) := by
    intro entry hentry hentry'
    rcases List.mem_append.mp hentry with hentry | hentry
    · exact hbetween entry hentry hentry'
    · rcases List.mem_cons.mp hentry with rfl | hentry
      · simp [save]
      · exact hafter entry hentry hentry'
  have hprogress := hbroadcasting.progress (by rw [hhistory, hsplit, List.append_assoc]; rfl) hwithin hstays
  have hdone : (delivery.phases c t).Done := by
    rw [Typestate.phases, hthread]
    exact hfollowing t _ hthread
  have hsaved : SavedIn t room (between ++ save :: after) id (.roomMessage room sender content createdAt) :=
    ⟨⟨sender, content, createdAt, rfl⟩, save, by simp, rfl, _, rfl, rfl⟩
  have hsent := sent_path hfollowing hpath _ (hprogress.sent_of_done hdone hsaved)
  -- it has been sent, and nothing is sent twice
  have honce := countP_event_le_one (sent_in_order (hrun.reachable.path hpath)) room sender content createdAt id k
  have hle : c'.shared.sent.count ⟨k, (Save.roomMessage room sender content createdAt).event id, true⟩ ≤ 1 := by
    refine (List.countP_mono_left fun e _ he => ?_).trans honce
    rw [beq_iff_eq] at he
    rw [he]
    exact decide_eq_true ⟨rfl, rfl⟩
  exact Nat.le_antisymm hle (List.count_pos_iff.mpr hsent)

/-- For every room message that was saved, the sender's handler has taken a snapshot of the members before; and if the
handler has sent what it sends, a user who has stayed logged in on one connection, connected and a member since then
is sent the event exactly once, however the run goes on. -/
def ReachesMembers (history : History) (c : Config Conn Input Op Op.Response ServerState) : Prop :=
  ∀ before t s room sender content createdAt id after,
    history = before ++ ⟨t, s, .act ⟨.saveRoomMessage room sender content createdAt, some id⟩⟩ :: after →
    (∃ earlier s₀ members between,
      before = earlier ++ snapshot t s₀ room sender members :: between ∧ Within t between) ∧
    ∀ earlier s₀ members between,
      before = earlier ++ snapshot t s₀ room sender members :: between → Within t between →
      Within t after → (∃ i done, c.threads t = some ⟨i, done, .ret ()⟩) →
      ∀ v k, (∀ entry ∈ snapshot t s₀ room sender members :: between ++
          ⟨t, s, .act ⟨.saveRoomMessage room sender content createdAt, some id⟩⟩ :: after,
          Stays v k room entry.before) →
        ∀ c', Path server (fun _ _ => True) c c' → c'.shared.sent.count
          ⟨k, (Save.roomMessage room sender content createdAt).event id, true⟩ = 1

theorem reachesMembers_of_traced {storage : ChatStorage} {history : History}
    {c : Config Conn Input Op Op.Response ServerState} (hrun : Traced server (.initial storage) history c) :
    ReachesMembers history c := by
  intro before t s room sender content createdAt id after hhistory
  refine ⟨snapshot_of_save hrun hhistory, ?_⟩
  intro earlier s₀ members between hsplit hbetween hafter hthread v k hstays c' hpath
  exact count_event_of_stays hrun hhistory hsplit hbetween hafter hthread hstays hpath

/-! ### A room message under way -/

def roomMessageRequest (room message : Bytes) : JsonObject :=
  (((∅ : JsonObject).insert (ascii "type") (ascii "room_msg")).insert (ascii "room") room).insert
    (ascii "message") message

theorem handleRequest_roomMessage (c : Conn) (room message : Bytes) :
    handleRequest c (roomMessageRequest room message) = sendRoomMessage c room message := by
  have hfields : fieldOrEmpty (roomMessageRequest room message) "type" = ascii "room_msg" ∧
      fieldOrEmpty (roomMessageRequest room message) "room" = room ∧
      fieldOrEmpty (roomMessageRequest room message) "message" = message := by
    simp (disch := decide) only [roomMessageRequest, fieldOrEmpty_insert_self, fieldOrEmpty_insert_of_ne,
      and_self]
  obtain ⟨htype, hroom, hmessage⟩ := hfields
  rw [handleRequest_roomMsg htype, hroom, hmessage]

/-- The actions of the handler for a member, up to the save. -/
theorem sendRoomMessage_saves (t : Conn) (room : Bytes) {username message : Bytes}
    (husername : username ≠ []) (hmessage : message ≠ []) (members : List Bytes) (now id : ℤ) :
    ∃ n₁ n₂ n₃ n₄, sendRoomMessage t room message = .call (.username t) n₁ ∧
      n₁ username = .call (.membersForMessage room username) n₂ ∧
      n₂ (.ok members) = .call .currentTimeSeconds n₃ ∧
      n₃ now = .call (.saveRoomMessage room username message now) n₄ ∧
      n₄ (some id) = .call (.userFindMany members)
        (sendToAll ((Save.roomMessage room username message now).event id)) := by
  have hnamed : ∃ n₁ n₂, sendRoomMessage t room message = .call (.username t) n₁ ∧
      n₁ username = .call (.membersForMessage room username) n₂ ∧
      ∃ n₃, n₂ (.ok members) = .call .currentTimeSeconds n₃ ∧
        ∃ n₄, n₃ now = .call (.saveRoomMessage room username message now) n₄ ∧
          n₄ (some id) = .call (.userFindMany members)
            (sendToAll ((Save.roomMessage room username message now).event id)) := by
    apply Exists.intro
    apply Exists.intro
    refine ⟨rfl, ?_, ?_⟩
    · show ((if username = [] then _ else _ : Handler (Option Bytes)) >>= _) = _
      rw [if_neg husername]
      show (if message = [] then _ else _) = _
      rw [if_neg hmessage]
      rfl
    · exact ⟨_, rfl, _, rfl, rfl⟩
  obtain ⟨n₁, n₂, h₁, h₂, n₃, h₃, n₄, h₄, h₅⟩ := hnamed
  exact ⟨n₁, n₂, n₃, n₄, h₁, h₂, h₃, h₄, h₅⟩

/-- The handler up to the save, as it is written in the history. -/
def savingEntries (env : Env) (t : Conn) (s : ServerState) (room username message : Bytes)
    (members : List Bytes) : History :=
  [⟨t, s, .begin (.request (roomMessageRequest room message))⟩, ⟨t, s, .act ⟨.username t, username⟩⟩,
    snapshot t s room username members, ⟨t, s, .act ⟨.currentTimeSeconds, env.now⟩⟩,
    ⟨t, s, .act ⟨.saveRoomMessage room username message env.now, some s.storage.nextId⟩⟩]

/-- A member sends a message; the handler has saved it and has not looked up the connections. -/
theorem traced_savesRoomMessage {s₀ s : ServerState} {history : History}
    {T : Conn → Option (Thread Input Op Op.Response)} {t : Conn} (h : Traced server s₀ history ⟨s, T⟩)
    (env : Env) {room username : Bytes} (message : Bytes) {members : List Bytes} (hidle : T t = none)
    (hconnected : (s.connections t).tcpState = .kConnected) (hname : (s.connections t).username = username)
    (husername : username ≠ []) (hmessage : message ≠ [])
    (hmembers : s.roomManager.membersForMessage room username = .ok members)
    (hsaved : env.saved = true) :
    ∃ done, Traced server s₀ (history ++ savingEntries env t s room username message members)
      ⟨(exec env (.saveRoomMessage room username message env.now) s).2, Function.update T t
        (some ⟨.request (roomMessageRequest room message), done, .call (.userFindMany members)
          (sendToAll ((Save.roomMessage room username message env.now).event s.storage.nextId))⟩)⟩ := by
  have hadmits : server.admits s t (.request (roomMessageRequest room message)) :=
    admits_request hconnected (roomMessageRequest room message)
  have hbegin := h.begin hidle hadmits
  have hprogram : server.program t (.request (roomMessageRequest room message)) =
      sendRoomMessage t room message := handleRequest_roomMessage t room message
  obtain ⟨n₁, n₂, n₃, n₄, h₁, h₂, h₃, h₄, h₅⟩ :=
    sendRoomMessage_saves t room husername hmessage members env.now s.storage.nextId
  rw [hprogram, h₁] at hbegin
  have hnamed := hbegin.perform env (r := username) hname
  rw [h₂] at hnamed
  have hlisted := hnamed.perform env (r := .ok members) hmembers
  rw [h₃] at hlisted
  have htimed := hlisted.perform env (r := env.now) rfl
  rw [h₄] at htimed
  have hid : ((exec env (.saveRoomMessage room username message env.now) s).1 : Option ℤ) =
      some s.storage.nextId := by
    rw [(exec_saveRoomMessage env room username message env.now s).1, if_pos hsaved]
  have hsave := htimed.perform env hid
  rw [h₅] at hsave
  have hentries : history ++ savingEntries env t s room username message members =
      history ++ [⟨t, s, .begin (.request (roomMessageRequest room message))⟩] ++
        [⟨t, s, .act ⟨.username t, username⟩⟩] ++
        [⟨t, s, .act ⟨.membersForMessage room username, .ok members⟩⟩] ++
        [⟨t, s, .act ⟨.currentTimeSeconds, env.now⟩⟩] ++
        [⟨t, s, .act ⟨.saveRoomMessage room username message env.now, some s.storage.nextId⟩⟩] := by
    simp [savingEntries, snapshot]
  rw [hentries]
  exact ⟨_, hsave⟩

/-- The states differ in calls, in what is stored and in what has been sent only. -/
structure SameUsers (s s' : ServerState) : Prop where
  userManager : s'.userManager = s.userManager
  connections : s'.connections = s.connections
  roomManager : s'.roomManager = s.roomManager

theorem SameUsers.trans {s s' s'' : ServerState} (h : SameUsers s s') (h' : SameUsers s' s'') : SameUsers s s'' :=
  ⟨h'.userManager.trans h.userManager, h'.connections.trans h.connections, h'.roomManager.trans h.roomManager⟩

theorem Stays.congr {v room : Bytes} {k : Conn} {s s' : ServerState} (h : Stays v k room s) (hsame : SameUsers s s') :
    Stays v k room s' :=
  ⟨hsame.userManager ▸ h.online, hsame.connections ▸ h.connected, hsame.roomManager ▸ h.member⟩

/-- In none of these moves a handler finishes, and none of them changes who is online or a member. -/
def Undisturbed (s : ServerState) (during : History) : Prop :=
  ∀ entry ∈ during, entry.move ≠ .finish ∧ SameUsers s entry.before

/-- The handler sends to all that it has found, and is about to finish. -/
theorem traced_sendToAll {s₀ : ServerState} {T : Conn → Option (Thread Input Op Op.Response)} {t : Conn} {i : Input}
    (env : Env) (payload : Outgoing) {connections : List Conn} :
    ∀ {history : History} {done : List (Event Op Op.Response)} {s : ServerState},
      Traced server s₀ history ⟨s, Function.update T t (some ⟨i, done, sendToAll payload connections⟩)⟩ →
      ∃ done' during s', Traced server s₀ (history ++ during) ⟨s', Function.update T t (some ⟨i, done', .ret ()⟩)⟩ ∧
        Undisturbed s during ∧ SameUsers s s' := by
  induction connections with
  | nil =>
    intro history done s h
    exact ⟨done, [], s, by rwa [List.append_nil], fun _ hentry => absurd hentry List.not_mem_nil, rfl, rfl, rfl⟩
  | cons connection connections ih =>
    intro history done s h
    have hsame : SameUsers s (exec env (.send connection payload) s).2 := ⟨rfl, rfl, rfl⟩
    obtain ⟨done', during, s', hsent, hduring, hs'⟩ := ih (h.perform env (r := ()) rfl)
    refine ⟨done', ⟨t, s, .act ⟨.send connection payload, ()⟩⟩ :: during, s', ?_, ?_, hsame.trans hs'⟩
    · rwa [List.append_assoc] at hsent
    · refine List.forall_mem_cons.mpr ⟨⟨nofun, rfl, rfl, rfl⟩, fun entry hentry => ?_⟩
      exact ⟨(hduring entry hentry).1, hsame.trans (hduring entry hentry).2⟩

theorem undisturbed_savingEntries {env : Env} {t : Conn} {s s' : ServerState} {room username message : Bytes}
    {members : List Bytes} (h : SameUsers s s') :
    Undisturbed s (savingEntries env t s' room username message members) := by
  simp only [Undisturbed, savingEntries, snapshot, List.forall_mem_cons]
  exact ⟨⟨nofun, h⟩, ⟨nofun, h⟩, ⟨nofun, h⟩, ⟨nofun, h⟩, ⟨nofun, h⟩, fun _ hentry => absurd hentry List.not_mem_nil⟩

theorem Undisturbed.append {s : ServerState} {during more : History} (h : Undisturbed s during)
    (hmore : Undisturbed s more) : Undisturbed s (during ++ more) := List.forall_mem_append.mpr ⟨h, hmore⟩

theorem Undisturbed.of_same {s s' : ServerState} {during : History} (h : Undisturbed s' during)
    (hsame : SameUsers s s') : Undisturbed s during :=
  fun entry hentry => ⟨(h entry hentry).1, hsame.trans (h entry hentry).2⟩

/-- Nobody comes or goes while the handler saves and sends: everybody who is there is sent the event once. -/
theorem ReachesMembers.count {earlier after : History} {c c' : Config Conn Input Op Op.Response ServerState} {env : Env}
    {t : Conn} {s : ServerState} {room username message : Bytes} {members : List Bytes}
    (h : ReachesMembers (earlier ++ savingEntries env t s room username message members ++ after) c)
    (hafter : Undisturbed s after) (hthread : ∃ i done, c.threads t = some ⟨i, done, .ret ()⟩) {v : Bytes} {k : Conn}
    (hstays : Stays v k room s) (hpath : Path server (fun _ _ => True) c c') :
    c'.shared.sent.count
      ⟨k, (Save.roomMessage room username message env.now).event s.storage.nextId, true⟩ = 1 := by
  let opening : History := earlier ++
    [⟨t, s, .begin (.request (roomMessageRequest room message))⟩, ⟨t, s, .act ⟨.username t, username⟩⟩]
  let timed : History := [⟨t, s, .act ⟨.currentTimeSeconds, env.now⟩⟩]
  have hhistory : earlier ++ savingEntries env t s room username message members ++ after =
      (opening ++ snapshot t s room username members :: timed) ++
        ⟨t, s, .act ⟨.saveRoomMessage room username message env.now, some s.storage.nextId⟩⟩ :: after := by
    simp [savingEntries, opening, timed]
  refine (h _ t s room username message env.now s.storage.nextId after hhistory).2 opening s members timed rfl
    (by simp [Within, timed]) (fun entry hentry _ => (hafter entry hentry).1) hthread v k ?_ c' hpath
  simp only [timed, snapshot, List.cons_append, List.nil_append, List.forall_mem_cons]
  exact ⟨hstays, hstays, hstays, fun entry hentry => hstays.congr (hafter entry hentry).2⟩

end ChatService
