import ChatService.Foundation.LoopQueues
import ChatService.Server.RoomRecipients

/-!
# In which order room messages arrive

`TcpConnection::send` hands a line to `sendInLoop` at once if it is called in the thread of the connection's loop; in
any other thread it queues a functor that does so in the loop.  The handlers of a connection run in its loop.  So the
order in which a connection takes lines is not always the order of the calls of `send`: a line from its own loop
overtakes those that are still queued there.

* `room_messages_reach_members` — every member gets a room message once, and what one login sends in the order of the
  ids.
* `second_login_overtakes` — the second login of a user, on the loop of a member, overtakes what the first has sent.
-/

namespace ChatService

open AtomicProgram LoopQueues

/-! ### Lines and who issues them -/

/-- A line for a connection in `kConnected`, and the connection whose handler sends it. -/
structure Issued where
  issuer : Conn
  connection : Conn
  payload : Outgoing
deriving DecidableEq

def issued? (entry : Entry Conn Input Op Op.Response ServerState) : Option Issued :=
  match entry.move with
  | .act ⟨.send connection payload, _⟩ =>
    if (entry.before.connections connection).tcpState = .kConnected then some ⟨entry.thread, connection, payload⟩
    else none
  | _ => none

/-- The lines that have been issued, in the order of the calls of `send`. -/
def issuedOf (history : History) : List Issued := history.filterMap issued?

def Issued.sent (line : Issued) : Sent := ⟨line.connection, line.payload, true⟩

theorem issuedOf_concat (history : History) (entry : Entry Conn Input Op Op.Response ServerState) :
    issuedOf (history ++ [entry]) = issuedOf history ++ (issued? entry).toList := by
  rw [issuedOf, List.filterMap_append]
  cases hissued : issued? entry <;> simp [issuedOf, hissued]

/-- What an action sends is issued. -/
theorem issued?_act (t : Conn) (s : ServerState) (op : Op) (response : op.Response) :
    (issued? ⟨t, s, .act ⟨op, response⟩⟩).toList.map Issued.sent = (op.sends s).filter Sent.queued := by
  cases op with
  | send connection payload =>
    by_cases hconnected : (s.connections connection).tcpState = .kConnected
    · simp [issued?, Op.sends, hconnected, Issued.sent]
    · simp [issued?, Op.sends, hconnected]
  | _ => rfl

/-- **The lines that were issued** are those that were sent while their connection was open. -/
theorem sent_issuedOf {storage : ChatStorage} {history : History} {c : Config Conn Input Op Op.Response ServerState}
    (h : Traced server (.initial storage) history c) :
    (issuedOf history).map Issued.sent = c.shared.sent.filter Sent.queued := by
  induction h with
  | init => rfl
  | @step history c t move c' _ hmove ih =>
    rw [issuedOf_concat, List.map_append, ih]
    cases hmove with
    | @begin i _ _ =>
      have hentered : (enter t i c.shared).sent = c.shared.sent := by cases i <;> rfl
      show _ = (enter t i c.shared).sent.filter Sent.queued
      rw [hentered]
      exact List.append_nil _
    | @act i done op next env _ =>
      show _ = (exec env op c.shared).2.sent.filter Sent.queued
      rw [issued?_act, sent_exec, List.filter_append]
    | finish _ => exact List.append_nil _

/-! ### What the connections take -/

section

variable {Loop : Type} [DecidableEq Loop] (loopOf : Conn → Loop)

/-- What the connections may have taken of the lines of a history, and what is queued for the loops, if `loopOf` tells
the loops of the connections. -/
abbrev CarriedBy (history : History) (wires : Wires Issued Conn Loop) : Prop :=
  Carried Issued.connection (fun line => loopOf line.issuer) loopOf (issuedOf history) wires

/-- The second line is from the receiver's own loop, the first is not. -/
def Overtakes (k : Conn) (second first : Issued) : Prop :=
  loopOf second.issuer = loopOf k ∧ loopOf first.issuer ≠ loopOf k

variable {loopOf} {storage : ChatStorage} {history : History} {c : Config Conn Input Op Op.Response ServerState}
  {wires : Wires Issued Conn Loop}

/-- The events of one sender are issued in the order of their ids. -/
theorem issued_in_order (h : Traced server (.initial storage) history c) :
    (issuedOf history).Pairwise fun line line' => SentBefore line.sent line'.sent := by
  have hsent : (c.shared.sent.filter Sent.queued).Pairwise SentBefore := (sent_in_order h.reachable).filter _
  rw [← sent_issuedOf h] at hsent
  exact List.pairwise_map.mp hsent

/-- **Arrivals.**  The events of one sender arrive in the order of their ids, but for those that are overtaken. -/
theorem taken_in_order (h : Traced server (.initial storage) history c) (hwires : CarriedBy loopOf history wires)
    (k : Conn) :
    (wires.taken k).Pairwise fun line line' => ∀ id id' sender, RoomEvent line.payload id sender →
      RoomEvent line'.payload id' sender → id < id' ∨ Overtakes loopOf k line line' := by
  refine (hwires.pairwise (issued_in_order h) k).imp_of_mem fun {line line'} hline hline' horder => ?_
  intro id id' sender hevent hevent'
  have hk : line.connection = k := (hwires.placed.taken k line hline).1
  have hk' : line'.connection = k := (hwires.placed.taken k line' hline').1
  rcases horder with hbefore | hovertakes
  · exact .inl (hbefore id id' sender (hk.trans hk'.symm) hevent hevent')
  · exact .inr hovertakes

/-- **Nothing is lost on the way**: of what was sent to a connection, all is taken or still queued. -/
theorem taken_perm (h : Traced server (.initial storage) history c) (hwires : CarriedBy loopOf history wires)
    (k : Conn) :
    ((wires.taken k ++ (wires.pending (loopOf k)).filter fun line => line.connection = k).map Issued.sent).Perm
      (c.shared.sent.filter fun e => e.connection = k ∧ e.queued) := by
  have hsent : c.shared.sent.filter (fun e => decide (e.connection = k ∧ e.queued)) =
      ((issuedOf history).filter fun line => line.connection = k).map Issued.sent := by
    have hsplit : c.shared.sent.filter (fun e => decide (e.connection = k ∧ e.queued)) =
        (c.shared.sent.filter Sent.queued).filter fun e => e.connection = k := by
      rw [List.filter_filter]
      exact List.filter_congr fun e _ => by simp
    rw [hsplit, ← sent_issuedOf h, List.filter_map]
    rfl
  rw [hsent]
  exact (hwires.perm k).map _

variable (storage) in
/-- **Room messages reach the members.**  In every run, whatever the interleaving and whatever the loops have not run
yet: no connection is sent a room event twice, and what it was sent it has taken or will take; the events of one sender
arrive in the order of their ids, unless a handler on the receiver's own loop has sent the later and one on another
loop the earlier, so those of one login always do; and for every room message that is saved, the sender's handler has
taken a snapshot of the members before, and a user who stays logged in on one connection, connected and a member from
there until the handler has sent what it sends is sent the event exactly once, however the run goes on. -/
theorem room_messages_reach_members (hrun : Traced server (.initial storage) history c)
    (hwires : CarriedBy loopOf history wires) :
    (∀ (room sender content : Bytes) (createdAt id : ℤ) (k : Conn),
      c.shared.sent.countP (fun e => decide (e.connection = k ∧
        e.payload = (Save.roomMessage room sender content createdAt).event id)) ≤ 1) ∧
    (∀ k, ((wires.taken k ++ (wires.pending (loopOf k)).filter fun line => line.connection = k).map
      Issued.sent).Perm (c.shared.sent.filter fun e => e.connection = k ∧ e.queued)) ∧
    (∀ k, (wires.taken k).Pairwise fun line line' => ∀ id id' sender, RoomEvent line.payload id sender →
      RoomEvent line'.payload id' sender →
        (line.issuer = line'.issuer → id < id') ∧ (id < id' ∨ Overtakes loopOf k line line')) ∧
    ReachesMembers history c := by
  refine ⟨countP_event_le_one (sent_in_order hrun.reachable), taken_perm hrun hwires, fun k => ?_,
    reachesMembers_of_traced hrun⟩
  refine (taken_in_order hrun hwires k).imp fun {line line'} horder => ?_
  intro id id' sender hevent hevent'
  have hlt := horder id id' sender hevent hevent'
  -- a line does not overtake one of the same login
  exact ⟨fun hissuer => hlt.resolve_right fun hovertakes => hovertakes.2 (hissuer ▸ hovertakes.1), hlt⟩

end

/-! ### Two senders -/

/-- Alice's connection is served by one loop, all others by another. -/
def aliceApart (k : Conn) : ℕ := if k = 1 then 0 else 1

/-- Alice and bob are in the lobby, and nothing has been stored. -/
structure TwoInLobby (s : ServerState) : Prop where
  empty : s.storage.lastId = 0 ∧ s.storage.ids = .counting
  alice : Stays (ascii "alice") 1 (ascii "lobby") s
  bob : Stays (ascii "bob") 2 (ascii "lobby") s
  names : (s.connections 1).username = ascii "alice" ∧ (s.connections 2).username = ascii "bob"
  members : ∀ name ∈ [ascii "alice", ascii "bob"],
    s.roomManager.membersForMessage (ascii "lobby") name = .ok [ascii "alice", ascii "bob"]
  found : s.userManager.findMany [ascii "alice", ascii "bob"] = [1, 2]

section

variable {s : ServerState} (h : TwoInLobby s)

include h

theorem TwoInLobby.stays {k : Conn} (hk : k ∈ [1, 2]) : ∃ v, Stays v k (ascii "lobby") s := by
  rcases List.mem_cons.mp hk with rfl | hk
  · exact ⟨_, h.alice⟩
  · obtain rfl := List.mem_singleton.mp hk
    exact ⟨_, h.bob⟩

/-- The next two ids. -/
theorem TwoInLobby.ids : s.storage.nextId = 1 ∧ s.storage.ids.next 1 = 2 := by
  rw [ChatStorage.nextId, h.empty.1, h.empty.2]
  exact ⟨rfl, rfl⟩

end

theorem twoInLobby_reached : ∃ earlier s, Traced server (.initial .empty) earlier (.quiet s) ∧ TwoInLobby s := by
  obtain ⟨earlier, htraced, -⟩ := aliceAndBobInLobby_reached
  have hmembers : ∀ name ∈ [ascii "alice", ascii "bob"], aliceAndBobInLobby.roomManager.membersForMessage
      (ascii "lobby") name = .ok [ascii "alice", ascii "bob"] := by decide +kernel
  refine ⟨earlier, aliceAndBobInLobby, htraced, ⟨by decide +kernel, rfl⟩, ⟨by decide +kernel, by decide +kernel, ?_⟩,
    ⟨by decide +kernel, by decide +kernel, ?_⟩, by decide +kernel, hmembers, by decide +kernel⟩
  · exact RoomManager.membersForMessage_isOk_iff.mp ⟨_, hmembers _ (by simp)⟩
  · exact RoomManager.membersForMessage_isOk_iff.mp ⟨_, hmembers _ (by simp)⟩

/-- Alice and bob write at the same time, and each of them gets both messages, once. -/
theorem alice_and_bob_get_both :
    ∃ history c, Traced server (.initial .empty) history c ∧
      ∀ c', Path server (fun _ _ => True) c c' → ∀ k ∈ [1, 2],
        c'.shared.sent.count
            ⟨k, (Save.roomMessage (ascii "lobby") (ascii "alice") (ascii "hi") 7).event 1, true⟩ = 1 ∧
          c'.shared.sent.count
            ⟨k, (Save.roomMessage (ascii "lobby") (ascii "bob") (ascii "yo") 7).event 2, true⟩ = 1 := by
  obtain ⟨earlier, s, htraced, h⟩ := twoInLobby_reached
  -- both save, and then bob sends, and then alice
  obtain ⟨done, hsaves⟩ := traced_savesRoomMessage (t := 1) htraced ⟨7, true⟩ (ascii "hi") rfl h.alice.connected
    h.names.1 (by decide) (by decide) (h.members _ (by simp)) rfl
  let saved := (exec ⟨7, true⟩ (.saveRoomMessage (ascii "lobby") (ascii "alice") (ascii "hi") 7) s).2
  obtain ⟨done', hsaves'⟩ := traced_savesRoomMessage (t := 2) hsaves ⟨7, true⟩ (ascii "yo") rfl h.bob.connected
    h.names.2 (by decide) (by decide) (h.members _ (by simp)) rfl
  obtain ⟨_, fromBob, s', hbob, hfromBob, hs'⟩ := traced_sendToAll ⟨7, true⟩ _
    (hsaves'.perform ⟨7, true⟩ (r := [1, 2]) h.found)
  rw [Function.update_comm (by decide)] at hbob
  have hsame : SameUsers s s' := ⟨hs'.userManager, hs'.connections, hs'.roomManager⟩
  obtain ⟨_, fromAlice, s'', halice, hfromAlice, -⟩ := traced_sendToAll ⟨7, true⟩ _
    (hbob.perform ⟨7, true⟩ (r := [1, 2]) (by rw [← h.found, ← hsame.userManager]; rfl))
  obtain ⟨wires, hwires, -⟩ :=
    exists_late Issued.connection (fun line => aliceApart line.issuer) aliceApart (issuedOf _) 1
  have hreach := (room_messages_reach_members .empty halice hwires).2.2.2
  refine ⟨_, _, halice, fun c' hpath k hk => ?_⟩
  obtain ⟨v, hstays⟩ := h.stays hk
  simp only [List.append_assoc] at hreach
  rw [← List.append_assoc earlier] at hreach
  have hlookup : Undisturbed s [⟨1, s', .act ⟨.userFindMany [ascii "alice", ascii "bob"], [1, 2]⟩⟩] :=
    List.forall_mem_singleton.mpr ⟨nofun, hsame⟩
  have hsends := hlookup.append (hfromAlice.of_same (s := s) ⟨hsame.userManager, hsame.connections, hsame.roomManager⟩)
  have hrest := (hfromBob.of_same (s := s) ⟨rfl, rfl, rfl⟩).append hsends
  have hfirst := hreach.count (Undisturbed.append (undisturbed_savingEntries ⟨rfl, rfl, rfl⟩)
    (List.forall_mem_cons.mpr ⟨⟨nofun, rfl, rfl, rfl⟩, hrest⟩)) ⟨_, _, rfl⟩ hstays hpath
  rw [← List.append_assoc _ (savingEntries _ 2 _ _ _ _ _)] at hreach
  have hsecond := hreach.count (List.forall_mem_cons.mpr ⟨⟨nofun, rfl, rfl, rfl⟩,
    hrest.of_same ⟨rfl, rfl, rfl⟩⟩) ⟨_, _, rfl⟩ (hstays.congr ⟨rfl, rfl, rfl⟩) hpath
  have hid : saved.storage.nextId = 2 := by
    show s.storage.ids.next s.storage.nextId = 2
    rw [h.ids.1, h.ids.2]
  rw [h.ids.1] at hfirst
  rw [hid] at hsecond
  exact ⟨hfirst, hsecond⟩

/-! ### Two logins of one sender -/

/-- The entries of handlers that run one after another. -/
def servedEntries (env : Env) : List (Conn × Input) → ServerState → History
  | [], _ => []
  | (t, i) :: inputs, s =>
    ⟨t, s, .begin i⟩ :: restEntries server env t (onInput t i) (enter t i s) ++
      servedEntries env inputs (serve1 env t i s)

/-- Each of the inputs may be handled. -/
def AllAdmitted (env : Env) : List (Conn × Input) → ServerState → Prop
  | [], _ => True
  | (t, i) :: inputs, s => admits s t i ∧ AllAdmitted env inputs (serve1 env t i s)

theorem traced_served {s₀ : ServerState} (env : Env) {inputs : List (Conn × Input)} :
    ∀ {history : History} {s : ServerState}, Traced server s₀ history (.quiet s) → AllAdmitted env inputs s →
      ∃ s', Traced server s₀ (history ++ servedEntries env inputs s) (.quiet s') := by
  induction inputs with
  | nil => exact fun {_ s} h _ => ⟨s, by rwa [servedEntries, List.append_nil]⟩
  | cons input inputs ih =>
    obtain ⟨t, i⟩ := input
    intro history s h hadmitted
    obtain ⟨s', hrun⟩ := ih (h.run env (t := t) (i := i) rfl hadmitted.1) hadmitted.2
    refine ⟨s', ?_⟩
    rwa [List.append_assoc] at hrun

def lobbyMessage (text : String) : Input := .request (roomMessageRequest (ascii "lobby") (ascii text))

/-- Alice writes, logs out, logs in on connection 3, and writes again. -/
def aliceTwice : List (Conn × Input) :=
  [(1, lobbyMessage "hi"), (1, logoutRequest), (3, loginRequest "alice"), (3, roomRequest "join" "lobby"),
    (3, lobbyMessage "yo")]

theorem aliceTwice_admitted : AllAdmitted ⟨7, true⟩ aliceTwice threeConnections :=
  ⟨admits_request (by decide +kernel) _, admits_request (by decide +kernel) _, admits_request (by decide +kernel) _,
    admits_request (by decide +kernel) _, admits_request (by decide +kernel) _, trivial⟩

/-- **The second login overtakes the first.**  Alice, on connection 1, writes message 1 while bob's loop is busy, so
that the line for bob is queued, and logs out.  In the same turn, bob's loop reads from connection 3, on which alice
logs in, joins the lobby again and writes message 2; bob's connection takes it at once, in front of message 1.  All
the time bob stays in the lobby. -/
theorem second_login_overtakes :
    ∃ earlier later, ∃ c, ∃ wires : Wires Issued Conn ℕ,
      Traced server (.initial .empty) (earlier ++ later) c ∧ CarriedBy aliceApart (earlier ++ later) wires ∧
      (∀ entry ∈ later, Stays (ascii "bob") 2 (ascii "lobby") entry.before) ∧
      ¬ (wires.taken 2).Pairwise fun line line' => ∀ id id' sender, RoomEvent line.payload id sender →
        RoomEvent line'.payload id' sender → id < id' := by
  obtain ⟨earlier, htraced, -⟩ := threeConnections_reached
  obtain ⟨s', hrun⟩ := traced_served ⟨7, true⟩ htraced aliceTwice_admitted
  obtain ⟨wires, hwires, htaken⟩ := exists_late Issued.connection (fun line => aliceApart line.issuer) aliceApart
    (issuedOf (earlier ++ servedEntries ⟨7, true⟩ aliceTwice threeConnections)) 1
  refine ⟨earlier, servedEntries ⟨7, true⟩ aliceTwice threeConnections, _, wires, hrun, hwires, ?_, fun horder => ?_⟩
  · have hall : ∀ entry ∈ servedEntries ⟨7, true⟩ aliceTwice threeConnections,
        entry.before.userManager.users[ascii "bob"]? = some 2 ∧ (entry.before.connections 2).tcpState = .kConnected ∧
          (entry.before.roomManager.membersForMessage (ascii "lobby") (ascii "bob")).isOk = true := by decide +kernel
    intro entry hentry
    obtain ⟨honline, hconnected, hmember⟩ := hall entry hentry
    refine ⟨honline, hconnected, RoomManager.membersForMessage_isOk_iff.mp ?_⟩
    cases hresult : entry.before.roomManager.membersForMessage (ascii "lobby") (ascii "bob") with
    | ok members => exact ⟨members, rfl⟩
    | error error =>
      rw [hresult] at hmember
      exact absurd hmember Bool.false_ne_true
  · have hissued : ∀ line ∈ issuedOf (servedEntries ⟨7, true⟩ aliceTwice threeConnections),
        line ∈ issuedOf (earlier ++ servedEntries ⟨7, true⟩ aliceTwice threeConnections) := by
      intro line hline
      rw [issuedOf, List.filterMap_append]
      exact List.mem_append_right _ hline
    have hfirst := hissued ⟨1, 2, (Save.roomMessage (ascii "lobby") (ascii "alice") (ascii "hi") 7).event 1⟩
      (by decide +kernel)
    have hsecond := hissued ⟨3, 2, (Save.roomMessage (ascii "lobby") (ascii "alice") (ascii "yo") 7).event 2⟩
      (by decide +kernel)
    rw [htaken 2 rfl] at horder
    have hlt := (List.pairwise_append.mp horder).2.2 _ (List.mem_filter.mpr ⟨hsecond, by decide⟩) _
      (List.mem_filter.mpr ⟨hfirst, by decide⟩) 2 1 (ascii "alice") ⟨_, _, _, rfl⟩ ⟨_, _, _, rfl⟩
    exact absurd hlt (by decide)

end ChatService
