import ChatService.Server.Contents

/-!
# The order of the room events

Each connection gets the events of one sender in the order of their ids, and so none of them twice.  A new id
is above all ids in the events that were sent before, a handler sends one event on connections that are all
different, and no two handlers act for one sender at a time, since the sender is registered for one
connection.

`Ordered` holds in the middle of handlers, too; it joins the two disciplines, because who acts for whom is a
matter of the first and what is sent a matter of the second.
-/

namespace ChatService

open AtomicProgram

/-- The line is the event of a room message with this id, from this sender. -/
def RoomEvent (payload : Outgoing) (id : ℤ) (sender : Bytes) : Prop :=
  ∃ room content createdAt, payload = (Save.roomMessage room sender content createdAt).event id

/-- On one connection, the events of one sender have increasing ids. -/
def SentBefore (e e' : Sent) : Prop :=
  ∀ id id' sender, e.connection = e'.connection → RoomEvent e.payload id sender →
    RoomEvent e'.payload id' sender → id < id'

section

variable {room sender room' sender' content content' : Bytes} {createdAt createdAt' id id' : ℤ}

/-- The fields of an event are those of its message. -/
theorem roomEvent_fields (room username message : Bytes) (messageId createdAt : ℤ) :
    let event := roomEvent room username message messageId createdAt
    fieldOrEmpty event "room" = room ∧ fieldOrEmpty event "from" = username ∧
      fieldOrEmpty event "message" = message ∧ fieldOrEmpty event "id" = int64ToString messageId ∧
      fieldOrEmpty event "created_at" = int64ToString createdAt := by
  simp (disch := decide) only [roomEvent, fieldOrEmpty_insert_self, fieldOrEmpty_insert_of_ne, and_self]

/-- An event determines its message. -/
theorem roomEvent_inj (h : (Save.roomMessage room sender content createdAt).event id =
    (Save.roomMessage room' sender' content' createdAt').event id') :
    room = room' ∧ sender = sender' ∧ content = content' ∧ createdAt = createdAt' ∧ id = id' := by
  have hobjects : roomEvent room sender content id createdAt =
      roomEvent room' sender' content' id' createdAt' := Outgoing.json.inj h
  obtain ⟨hroom, hsender, hcontent, hid, hcreatedAt⟩ := roomEvent_fields room sender content id createdAt
  obtain ⟨hroom', hsender', hcontent', hid', hcreatedAt'⟩ :=
    roomEvent_fields room' sender' content' id' createdAt'
  rw [hobjects] at hroom hsender hcontent hid hcreatedAt
  exact ⟨hroom.symm.trans hroom', hsender.symm.trans hsender', hcontent.symm.trans hcontent',
    int64ToString_injective (hcreatedAt.symm.trans hcreatedAt'),
    int64ToString_injective (hid.symm.trans hid')⟩

theorem roomEvent_event (h : RoomEvent ((Save.roomMessage room sender content createdAt).event id) id' sender') :
    id' = id ∧ sender' = sender := by
  obtain ⟨room', content', createdAt', heq⟩ := h
  obtain ⟨-, hsender, -, -, hid⟩ := roomEvent_inj heq
  exact ⟨hid.symm, hsender.symm⟩

theorem not_roomEvent_of_plain {payload : Outgoing} (h : payload.Plain) : ¬ RoomEvent payload id sender := by
  rintro ⟨room, content, createdAt, rfl⟩
  exact h.2 (type_roomEvent _ _ _ _ _)

theorem not_roomEvent_private {receiver : Bytes} :
    ¬ RoomEvent ((Save.privateMessage sender receiver content createdAt).event id) id' sender' := by
  rintro ⟨room, content', createdAt', heq⟩
  have hobjects : privateEvent sender content id createdAt = roomEvent room sender' content' id' createdAt' :=
    Outgoing.json.inj heq
  have htype := type_privateEvent sender content id createdAt
  rw [hobjects, type_roomEvent] at htype
  exact absurd htype (by decide)

end

/-! ### What a handler has in hand -/

/-- The sender a handler has in hand. -/
def Delivery.user? : Delivery → Option Bytes
  | named username => some username
  | listed _ username _ => some username
  | savedRoom _ save _ => some save.sender
  | sending _ save _ => some save.sender
  | _ => none

/-- How what it has in hand lies to what has been sent. -/
def Delivery.Ready (sent : List Sent) (lastId : ℤ) : Delivery → Prop
  | listed _ _ members => members.Nodup
  | savedRoom id save members => (∃ room content createdAt,
      save = .roomMessage room save.sender content createdAt) ∧ members.Nodup ∧ id ≤ lastId ∧
      ∀ e ∈ sent, ∀ id', RoomEvent e.payload id' save.sender → id' < id
  | sending id save remaining => (∃ room content createdAt,
      save = .roomMessage room save.sender content createdAt) ∧ remaining.Nodup ∧ id ≤ lastId ∧
      ∀ e ∈ sent, ∀ id', RoomEvent e.payload id' save.sender →
        id' < id ∨ (id' = id ∧ e.connection ∉ remaining)
  | savedPrivate _ save => ∃ sender receiver content createdAt,
      save = .privateMessage sender receiver content createdAt
  | _ => True

structure Ordered (s : ServerState) (P : Conn → Phase × Delivery) : Prop where
  identity : Identity s fun c => (P c).1
  acting : ∀ {c u}, (P c).2.user? = some u → (P c).1 = .acting u
  issued : ∀ e ∈ s.sent, ∀ {id u}, RoomEvent e.payload id u → id ≤ s.storage.lastId
  ready : ∀ c, (P c).2.Ready s.sent s.storage.lastId
  sent : s.sent.Pairwise SentBefore

namespace Delivery

variable {phase : Delivery} {sent : List Sent} {lastId lastId' : ℤ}

/-- Later ids do not matter. -/
theorem Ready.mono (h : phase.Ready sent lastId) (hle : lastId ≤ lastId') : phase.Ready sent lastId' := by
  cases phase with
  | savedRoom id save members =>
    obtain ⟨hroom, hnodup, hid, hsent⟩ := h
    exact ⟨hroom, hnodup, hid.trans hle, hsent⟩
  | sending id save remaining =>
    obtain ⟨hroom, hnodup, hid, hsent⟩ := h
    exact ⟨hroom, hnodup, hid.trans hle, hsent⟩
  | _ => exact h

/-- Nor do lines that tell of no message of the sender. -/
theorem Ready.snoc (h : phase.Ready sent lastId) {e : Sent}
    (hother : ∀ {id u}, RoomEvent e.payload id u → phase.user? ≠ some u) :
    phase.Ready (sent ++ [e]) lastId := by
  have hnew : ∀ {id save}, phase.user? = some (Save.sender save) → ∀ e' ∈ sent ++ [e],
      RoomEvent e'.payload id save.sender → e' ∈ sent := by
    intro id save huser e' he' hevent
    rcases List.mem_append.mp he' with he' | he'
    · exact he'
    · rw [List.mem_singleton.mp he'] at hevent
      exact absurd huser (hother hevent)
  cases phase with
  | savedRoom id save members =>
    obtain ⟨hroom, hnodup, hid, hsent⟩ := h
    exact ⟨hroom, hnodup, hid, fun e' he' id' hevent =>
      hsent e' (hnew rfl e' he' hevent) id' hevent⟩
  | sending id save remaining =>
    obtain ⟨hroom, hnodup, hid, hsent⟩ := h
    exact ⟨hroom, hnodup, hid, fun e' he' id' hevent =>
      hsent e' (hnew rfl e' he' hevent) id' hevent⟩
  | _ => exact h

/-- In the loop, the event goes out on the next connection. -/
theorem Ready.send {connection : Conn} {payload : Outgoing} {queued : Bool} (h : phase.Ready sent lastId)
    (hmay : phase.MaySend connection payload) :
    (phase.next (.send connection payload) ()).Ready (sent ++ [⟨connection, payload, queued⟩]) lastId := by
  cases phase with
  | idle => exact trivial
  | named username => exact trivial
  | listed room username members => exact hmay.elim
  | savedRoom id save members => exact hmay.elim
  | sending id save remaining =>
    obtain ⟨⟨room, content, createdAt, hsave⟩, hnodup, hid, hsent⟩ := h
    obtain ⟨hhead, rfl⟩ := hmay
    obtain ⟨rest, rfl⟩ := List.head?_eq_some_iff.mp hhead
    refine ⟨⟨room, content, createdAt, hsave⟩, (List.nodup_cons.mp hnodup).2, hid, fun e he id' hevent => ?_⟩
    rcases List.mem_append.mp he with he | he
    · exact (hsent e he id' hevent).imp_right fun ⟨hsame, hnot⟩ =>
        ⟨hsame, fun hmem => hnot (List.mem_cons_of_mem _ hmem)⟩
    · rw [List.mem_singleton.mp he] at hevent ⊢
      rw [hsave] at hevent
      exact .inr ⟨(roomEvent_event hevent).1, (List.nodup_cons.mp hnodup).1⟩
  | savedPrivate id save => exact h
  | loaded messages => exact trivial

/-- A handler that sends a room event is in the loop over the connections. -/
theorem MaySend.roomEvent {connection : Conn} {payload : Outgoing} (h : phase.MaySend connection payload)
    (hready : phase.Ready sent lastId) {id : ℤ} {u : Bytes} (hevent : RoomEvent payload id u) :
    ∃ save remaining, phase = .sending id save (connection :: remaining) ∧ save.sender = u := by
  cases phase with
  | idle => exact absurd hevent (not_roomEvent_of_plain h)
  | named username => exact absurd hevent (not_roomEvent_of_plain h)
  | listed room username members => exact h.elim
  | savedRoom id save members => exact h.elim
  | sending id' save remaining =>
    obtain ⟨hhead, rfl⟩ := h
    obtain ⟨⟨room, content, createdAt, hsave⟩, -⟩ := hready
    obtain ⟨rest, rfl⟩ := List.head?_eq_some_iff.mp hhead
    rw [hsave] at hevent
    obtain ⟨rfl, rfl⟩ := roomEvent_event hevent
    exact ⟨save, rest, rfl, rfl⟩
  | savedPrivate id' save =>
    obtain ⟨sender, receiver, content, createdAt, rfl⟩ := hready
    rcases h with rfl | hplain
    · exact absurd hevent not_roomEvent_private
    · exact absurd hevent (not_roomEvent_of_plain hplain)
  | loaded messages =>
    obtain ⟨room, content, createdAt, rfl⟩ := hevent
    obtain ⟨name, h | h⟩ := h <;> exact absurd h (by simp [Save.event])

end Delivery

/-! ### What an action makes of it -/

/-- A handler that has a sender in hand acts for the sender, before and after. -/
theorem acting_next {c : Conn} {phase : Phase} {delivery : Delivery} {op : Op}
    (hallowed : op.DeliveredIn c delivery)
    (hacting : ∀ {u}, delivery.user? = some u → phase = .acting u) (r : op.Response) {u : Bytes}
    (hu : (delivery.next op r).user? = some u) : phase.next op r = .acting u := by
  cases op with
  | username connection =>
    change (if r = [] then Delivery.idle else .named r).user? = some u at hu
    change (if r = [] then Phase.anonymous else .acting r) = .acting u
    split_ifs at hu ⊢ with hname
    · exact absurd hu (by simp [Delivery.user?])
    · rw [Option.some.inj hu]
  | membersForMessage room username =>
    cases r with
    | error error => exact absurd hu (by simp [Delivery.next, Delivery.user?])
    | ok members =>
      obtain rfl := Option.some.inj hu
      exact hacting (by rw [show delivery = .named username from hallowed]; rfl)
  | currentTimeSeconds => exact hacting hu
  | userFind username =>
    have hphase := hacting hu
    subst hphase
    cases r <;> rfl
  | savePrivateMessage sender receiver content timestamp =>
    cases r <;> exact absurd hu (by simp [Delivery.next, Delivery.user?])
  | saveRoomMessage room sender content timestamp =>
    obtain ⟨members, rfl⟩ := hallowed
    cases r with
    | none => exact absurd hu (by simp [Delivery.next, Delivery.user?])
    | some id =>
      obtain rfl := Option.some.inj hu
      exact hacting rfl
  | userFindMany usernames =>
    obtain ⟨id, save, rfl⟩ := hallowed
    exact hacting hu
  | send connection payload =>
    cases delivery with
    | loaded messages => exact absurd hu (by simp [Delivery.next, Delivery.user?])
    | _ => exact hacting hu
  | _ => exact absurd hu (by simp [Delivery.next, Delivery.user?])

section

variable {s : ServerState} {P : Conn → Phase × Delivery} {t : Conn}

/-- No two handlers have one sender in hand. -/
theorem Ordered.unique (h : Ordered s P) {c c' : Conn} {u : Bytes} (hc : (P c).2.user? = some u)
    (hc' : (P c').2.user? = some u) : c = c' := by
  have honline : ∀ {k : Conn}, (P k).2.user? = some u → s.userManager.users[u]? = some k := by
    intro k hk
    have hphase := h.acting hk
    exact (h.identity.each k).registered (by rw [hphase]; rfl) (by rw [hphase]; simp)
  exact Option.some.inj ((honline hc).symm.trans (honline hc'))

/-- The connections of different users are different. -/
theorem Ordered.nodup_findMany (h : Ordered s P) {members : List Bytes} (hnodup : members.Nodup) :
    (s.userManager.findMany members).Nodup := by
  rw [UserManager.findMany]
  refine List.Nodup.filterMap (fun u v k hu hv => ?_) hnodup
  exact h.identity.one_name hu hv

/-- The members of a room are listed once each. -/
theorem nodup_membersForMessage {m : RoomManager} {room username : Bytes} {members : List Bytes}
    (h : m.membersForMessage room username = .ok members) : members.Nodup := by
  refine (RoomManager.membersForMessage_eq_ok h).1.imp @fun u v hlt heq => ?_
  have hself : compare v v = .eq := Std.ReflCmp.compare_self
  rw [heq, hself] at hlt
  exact absurd hlt (by decide)

/-- The ids of the storage only grow. -/
theorem lastId_exec (env : Env) (op : Op) (s : ServerState) :
    s.storage.lastId ≤ (exec env op s).2.storage.lastId := by
  rcases storage_exec env op s with ⟨hsame, -⟩ | ⟨save, -, hadded⟩
  · rw [hsame]
  · rw [hadded]
    exact s.storage.lastId_lt_nextId.le

/-- A room message that is saved gets the next id. -/
theorem exec_saveRoomMessage (env : Env) (room sender content : Bytes) (timestamp : ℤ) (s : ServerState) :
    ((exec env (.saveRoomMessage room sender content timestamp) s).1 : Option ℤ) =
        (if env.saved then some s.storage.nextId else none) ∧
      (exec env (.saveRoomMessage room sender content timestamp) s).2.storage.lastId =
        if env.saved then s.storage.nextId else s.storage.lastId := by
  show (s.storage.saveRoomMessage env.saved room sender content timestamp).1 = _ ∧
    (s.storage.saveRoomMessage env.saved room sender content timestamp).2.lastId = _
  rw [ChatStorage.saveRoomMessage, ChatStorage.insert]
  split_ifs
  · exact ⟨rfl, rfl⟩
  · exact ⟨rfl, rfl⟩

/-- What the acting handler has in hand after an action other than `send`. -/
theorem ready_next (h : Ordered s P) {op : Op} (hallowed : op.DeliveredIn t (P t).2) (env : Env)
    (hsend : ∀ connection payload, op ≠ .send connection payload) :
    ((P t).2.next op (exec env op s).1).Ready s.sent (exec env op s).2.storage.lastId := by
  have hready := h.ready t
  cases op with
  | username connection =>
    show (if _ then Delivery.idle else .named _).Ready _ _
    split_ifs <;> exact trivial
  | membersForMessage room username =>
    show ((P t).2.next (.membersForMessage room username)
      (s.roomManager.membersForMessage room username)).Ready _ _
    cases hmembers : s.roomManager.membersForMessage room username with
    | error error => exact trivial
    | ok members => exact nodup_membersForMessage hmembers
  | currentTimeSeconds => exact hready
  | userFind username => exact hready
  | savePrivateMessage sender receiver content timestamp =>
    generalize ((exec env (.savePrivateMessage sender receiver content timestamp) s).1 : Option ℤ) = saved
    cases saved with
    | none => exact trivial
    | some id => exact ⟨sender, receiver, content, timestamp, rfl⟩
  | saveRoomMessage room sender content timestamp =>
    obtain ⟨members, hphase⟩ := hallowed
    obtain ⟨hresponse, hlastId⟩ := exec_saveRoomMessage env room sender content timestamp s
    rw [hphase] at hready ⊢
    rw [hlastId]
    by_cases hsaved : env.saved
    · rw [if_pos hsaved] at hresponse ⊢
      rw [hresponse]
      -- the new id is above all that have been issued
      refine ⟨⟨room, content, timestamp, rfl⟩, hready, le_refl _, fun e he id' hevent => ?_⟩
      exact (h.issued e he hevent).trans_lt s.storage.lastId_lt_nextId
    · rw [if_neg hsaved] at hresponse
      rw [hresponse]
      exact trivial
  | userFindMany usernames =>
    obtain ⟨id, save, hphase⟩ := hallowed
    rw [hphase] at hready ⊢
    obtain ⟨hroom, hnodup, hid, hsent⟩ := hready
    exact ⟨hroom, h.nodup_findMany hnodup, hid, fun e he id' hevent => .inl (hsent e he id' hevent)⟩
  | send connection payload => exact absurd rfl (hsend connection payload)
  | _ => exact trivial

/-- A line is sent. -/
theorem Ordered.send (h : Ordered s P) {connection : Conn} {payload : Outgoing} {phase : Phase}
    (hidentity : Identity (s.send connection payload) (Function.update (fun c => (P c).1) t phase))
    (hmay : (P t).2.MaySend connection payload)
    (hacting : ∀ {u}, ((P t).2.next (.send connection payload) ()).user? = some u → phase = .acting u) :
    Ordered (s.send connection payload)
      (Function.update P t (phase, (P t).2.next (.send connection payload) ())) := by
  have hroom : ∀ {id : ℤ} {u : Bytes}, RoomEvent payload id u →
      ∃ save remaining, (P t).2 = .sending id save (connection :: remaining) ∧ save.sender = u :=
    hmay.roomEvent (h.ready t)
  refine ⟨?_, @fun c u hu => ?_, @fun e he id u hevent => ?_, fun c => ?_, ?_⟩
  · rwa [Typestate.update_fst]
  · by_cases hc : c = t
    · subst hc
      rw [Function.update_self] at hu ⊢
      exact hacting hu
    · rw [Function.update_of_ne hc] at hu ⊢
      exact h.acting hu
  · rcases List.mem_append.mp he with he | he
    · exact h.issued e he hevent
    · rw [List.mem_singleton.mp he] at hevent
      obtain ⟨save, remaining, hphase, -⟩ := hroom hevent
      have hready := h.ready t
      rw [hphase] at hready
      exact hready.2.2.1
  · by_cases hc : c = t
    · subst hc
      rw [Function.update_self]
      exact (h.ready c).send hmay
    · rw [Function.update_of_ne hc]
      -- nobody else has the sender of the event in hand
      refine (h.ready c).snoc fun hevent hu => ?_
      obtain ⟨save, remaining, hphase, rfl⟩ := hroom hevent
      exact hc (h.unique hu (by rw [hphase]; rfl))
  · show (s.sent ++ [_]).Pairwise SentBefore
    refine List.pairwise_append.mpr ⟨h.sent, List.pairwise_singleton _ _, fun e he e' he' => ?_⟩
    rw [List.mem_singleton.mp he']
    intro id id' u hconnection hevent hevent'
    obtain ⟨save, remaining, hphase, rfl⟩ := hroom hevent'
    have hready := h.ready t
    rw [hphase] at hready
    rcases hready.2.2.2 e he id hevent with hlt | ⟨-, hnot⟩
    · exact hlt
    · exact absurd (hconnection ▸ List.mem_cons_self) hnot

/-- Any other action is taken. -/
theorem Ordered.other (h : Ordered s P) {op : Op} (hallowed : op.DeliveredIn t (P t).2) (env : Env)
    (hsend : ∀ connection payload, op ≠ .send connection payload) {phase : Phase}
    (hidentity : Identity (exec env op s).2 (Function.update (fun c => (P c).1) t phase))
    (hacting : ∀ {u}, ((P t).2.next op (exec env op s).1).user? = some u → phase = .acting u) :
    Ordered (exec env op s).2 (Function.update P t (phase, (P t).2.next op (exec env op s).1)) := by
  have hsent : (exec env op s).2.sent = s.sent := by
    rw [sent_exec]
    cases op with
    | send connection payload => exact absurd rfl (hsend connection payload)
    | _ => exact List.append_nil _
  refine ⟨?_, @fun c u hu => ?_, @fun e he id u hevent => ?_, fun c => ?_, ?_⟩
  · rwa [Typestate.update_fst]
  · by_cases hc : c = t
    · subst hc
      rw [Function.update_self] at hu ⊢
      exact hacting hu
    · rw [Function.update_of_ne hc] at hu ⊢
      exact h.acting hu
  · rw [hsent] at he
    exact (h.issued e he hevent).trans (lastId_exec env op s)
  · rw [hsent]
    by_cases hc : c = t
    · subst hc
      rw [Function.update_self]
      exact ready_next h hallowed env hsend
    · rw [Function.update_of_ne hc]
      exact (h.ready c).mono (lastId_exec env op s)
  · rw [hsent]
    exact h.sent

/-- **Every action keeps the events in order.** -/
theorem ordered_kept : (discipline.both delivery).Keeps server (fun _ _ _ _ => True) Ordered where
  enter := by
    intro s P t i h hphase hadmits
    have hidentity := identity_kept.enter h.identity (congrArg Prod.fst hphase) hadmits
    have hsame : (enter t i s).sent = s.sent ∧ (enter t i s).storage = s.storage := by
      cases i <;> exact ⟨rfl, rfl⟩
    refine ⟨hidentity, h.acting, @fun e he => ?_, fun c => ?_, ?_⟩
    · change e ∈ (enter t i s).sent at he
      rw [hsame.1] at he
      show ∀ {id u}, RoomEvent e.payload id u → id ≤ (enter t i s).storage.lastId
      rw [hsame.2]
      exact h.issued e he
    · show (P c).2.Ready (enter t i s).sent (enter t i s).storage.lastId
      rw [hsame.1, hsame.2]
      exact h.ready c
    · show (enter t i s).sent.Pairwise SentBefore
      rw [hsame.1]
      exact h.sent
  act := by
    intro s P t op env h hallowed _
    have hidentity := identity_kept.act env h.identity hallowed.1 trivial
    have hacting : ∀ {u : Bytes}, ((P t).2.next op (exec env op s).1).user? = some u →
        (P t).1.next op (exec env op s).1 = .acting u :=
      acting_next hallowed.2 h.acting _
    by_cases hsend : ∃ connection payload, op = .send connection payload
    · obtain ⟨connection, payload, rfl⟩ := hsend
      exact h.send hidentity hallowed.2 hacting
    · exact h.other hallowed.2 env (fun connection payload heq => hsend ⟨connection, payload, heq⟩)
        hidentity hacting
  rest := by
    intro s P t h hrest
    refine ⟨?_, @fun c u hu => ?_, h.issued, fun c => ?_, h.sent⟩
    · rw [Typestate.update_fst]
      exact identity_kept.rest h.identity hrest.1
    · by_cases hc : c = t
      · subst hc
        rw [Function.update_self] at hu
        exact absurd hu (by simp [Typestate.both, delivery, Delivery.user?])
      · rw [Function.update_of_ne hc] at hu ⊢
        exact h.acting hu
    · by_cases hc : c = t
      · subst hc
        rw [Function.update_self]
        exact trivial
      · rw [Function.update_of_ne hc]
        exact h.ready c

end

/-- Every handler keeps to both disciplines. -/
theorem server_follows_both (c : Conn) (input : Input) :
    (discipline.both delivery).Follows c (discipline.both delivery).resting (server.program c input)
      fun phase _ => (discipline.both delivery).mayRest phase :=
  (server_follows c input).both (server_delivers c input)

/-- Nothing has been sent at the start. -/
theorem Ordered.initial (storage : ChatStorage) :
    Ordered (.initial storage) fun _ => (discipline.both delivery).resting :=
  ⟨Identity.initial storage, fun hu => absurd hu (by simp [Typestate.both, delivery, Delivery.user?]),
    fun e he => absurd he (by simp [ServerState.initial]), fun _ => trivial, .nil⟩

/-- What any run reaches is in order. -/
theorem ordered_of_reachable {storage : ChatStorage} {c : Config Conn Input Op Op.Response ServerState}
    (h : Reachable server (fun _ _ => True) (.initial storage) c) :
    Ordered c.shared ((discipline.both delivery).phases c) :=
  (Typestate.invariant_always server_follows_both ordered_kept (Ordered.initial storage) h).1

/-- **The events of one sender are sent in the order of their ids**, on each connection. -/
theorem sent_in_order {storage : ChatStorage} {c : Config Conn Input Op Op.Response ServerState}
    (h : Reachable server (fun _ _ => True) (.initial storage) c) : c.shared.sent.Pairwise SentBefore :=
  (ordered_of_reachable h).sent

end ChatService
