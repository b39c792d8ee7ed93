import ChatService.Foundation.SetTables
import ChatService.Server.RoomManager
import Mathlib.Data.Set.Card

/-!
# Who is in which room

What the two indexes of `RoomManager` stand for is one relation between users and rooms, and the set of the
rooms there are: `Membership`.  `Consistent` says that the indexes stand for one such relation, and every
operation does on it what `RoomOperation.effect` says, or fails and changes nothing.
-/

namespace ChatService

open SetTables

/-- The rooms there are, and who is in which. -/
@[ext] structure Membership where
  rooms : Set Bytes
  members : Set (Bytes × Bytes)

inductive RoomOperation where
  | createRoom (room : Bytes)
  | joinRoom (room username : Bytes)
  | leaveRoom (room username : Bytes)
  | leaveAll (username : Bytes)
deriving DecidableEq

namespace RoomOperation

/-- When an operation fails. -/
def Fails (v : Membership) : RoomOperation → Prop
  | createRoom room => isValidName room = false ∨ room ∈ v.rooms
  | joinRoom room _ => room ∉ v.rooms
  | leaveRoom room username => (username, room) ∉ v.members ∨ room ∉ v.rooms
  | leaveAll _ => False

/-- What an operation does that does not fail. -/
def effect (v : Membership) : RoomOperation → Membership
  | createRoom room => { v with rooms := insert room v.rooms }
  | joinRoom room username => { v with members := insert (username, room) v.members }
  | leaveRoom room username => { v with members := v.members \ {(username, room)} }
  | leaveAll username => { v with members := {pair ∈ v.members | pair.1 ≠ username} }

/-- The manager's method, with its error. -/
def apply (m : RoomManager) : RoomOperation → Option Bytes × RoomManager
  | createRoom room => m.createRoom room
  | joinRoom room username => m.joinRoom room username
  | leaveRoom room username => m.leaveRoom room username
  | leaveAll username => (none, m.leaveAll username)

end RoomOperation

namespace RoomManager

variable {m : RoomManager}

def applyAll (m : RoomManager) (operations : List RoomOperation) : RoomManager :=
  operations.foldl (fun m operation => (operation.apply m).2) m

/-- What the room index stands for. -/
def membership (m : RoomManager) : Membership where
  rooms := {room | room ∈ m.rooms}
  members := {pair | Related m.rooms pair.2 pair.1}

/-- The user index is the reverse of the room index, and rooms have valid names. -/
structure Consistent (m : RoomManager) : Prop where
  linked : Linked m.rooms m.userRooms
  valid : ∀ room ∈ m.rooms, isValidName room = true

theorem Consistent.empty : Consistent RoomManager.empty := by
  refine ⟨⟨fun room username => ?_, fun username => ?_⟩, fun room hroom => ?_⟩
  · exact iff_of_false (not_related_of_none (by simp [RoomManager.empty]))
      (not_related_of_none (by simp [RoomManager.empty]))
  · simp [RoomManager.empty]
  · exact absurd hroom (by simp [RoomManager.empty])

/-! ### Rooms -/

theorem mem_rooms_iff {room : Bytes} : room ∈ m.rooms ↔ ∃ members, m.rooms[room]? = some members := by
  rw [Std.ExtTreeMap.mem_iff_isSome_getElem?, Option.isSome_iff_exists]

/-- Overwriting a room adds none. -/
theorem mem_insert_of_some {t : SetTable Bytes Bytes} {room : Bytes} {old new : NameSet}
    (h : t[room]? = some old) (a : Bytes) : a ∈ t.insert room new ↔ a ∈ t := by
  rw [Tables.mem_insert]
  refine ⟨fun ha => ?_, .inr⟩
  rcases ha with rfl | ha
  · rw [Std.ExtTreeMap.mem_iff_isSome_getElem?, h]
    rfl
  · exact ha

/-! ### The relation under each operation -/

/-- A room that is new has no members. -/
theorem related_createRoom {room : Bytes} (h : m.rooms[room]? = none) (r u : Bytes) :
    Related (m.rooms.insert room ∅) r u ↔ Related m.rooms r u := by
  by_cases hr : room = r
  · subst hr
    rw [related_insert_self]
    exact iff_of_false Std.ExtTreeSet.not_mem_empty (not_related_of_none h)
  · exact related_insert_of_ne hr

theorem related_forgetRoom (userRooms : SetTable Bytes Bytes) (room username u r : Bytes) :
    Related (forgetRoom userRooms room username) u r ↔
      Related userRooms u r ∧ ¬ (u = username ∧ r = room) := by
  rw [forgetRoom]
  split
  · next hnone =>
    refine ⟨fun h => ⟨h, ?_⟩, fun h => h.1⟩
    rintro ⟨rfl, -⟩
    exact not_related_of_none hnone h
  · next rooms hrooms =>
    split_ifs with hempty
    · rw [related_erase]
      refine and_congr_right fun h => not_congr ⟨?_, fun hu => hu.1⟩
      rintro rfl
      refine ⟨rfl, ?_⟩
      -- the user's set held this room only
      rw [related_iff_mem hrooms] at h
      by_contra hr
      have hmem : r ∈ rooms.erase room := by
        rw [Std.ExtTreeSet.mem_erase, Ne, Std.LawfulEqCmp.compare_eq_iff_eq]
        exact ⟨Ne.symm hr, h⟩
      rw [Std.ExtTreeSet.isEmpty_iff] at hempty
      rw [hempty] at hmem
      exact Std.ExtTreeSet.not_mem_empty hmem
    · exact related_remove hrooms

theorem tight_forgetRoom {userRooms : SetTable Bytes Bytes} (h : Tight userRooms)
    (room username : Bytes) : Tight (forgetRoom userRooms room username) := by
  rw [forgetRoom]
  split
  · exact h
  · split_ifs with hempty
    · exact h.erase
    · refine h.insert fun hnil => hempty ?_
      rw [hnil]
      rfl

/-- One round of `leaveAll` takes the user out of one room. -/
theorem related_dropMember (rooms : SetTable Bytes Bytes) (username room r u : Bytes) :
    Related (dropMember username rooms room) r u ↔
      Related rooms r u ∧ ¬ (r = room ∧ u = username) := by
  rw [dropMember]
  split
  · next hnone =>
    refine ⟨fun h => ⟨h, ?_⟩, fun h => h.1⟩
    rintro ⟨rfl, -⟩
    exact not_related_of_none hnone h
  · next members hmembers => exact related_remove hmembers

/-- All rounds take the user out of all rooms of the list. -/
theorem related_foldl_dropMember (username : Bytes) (list : List Bytes) (r u : Bytes) :
    ∀ rooms : SetTable Bytes Bytes, Related (list.foldl (dropMember username) rooms) r u ↔
      Related rooms r u ∧ ¬ (r ∈ list ∧ u = username) := by
  induction list with
  | nil => simp
  | cons room list ih =>
    intro rooms
    rw [List.foldl_cons, ih, related_dropMember, List.mem_cons]
    tauto

theorem mem_foldl_dropMember (username : Bytes) (list : List Bytes) (r : Bytes) :
    ∀ rooms : SetTable Bytes Bytes, r ∈ list.foldl (dropMember username) rooms ↔ r ∈ rooms := by
  induction list with
  | nil => simp
  | cons room list ih =>
    intro rooms
    rw [List.foldl_cons, ih, dropMember]
    split
    · rfl
    · next members hmembers => exact mem_insert_of_some hmembers r

/-- `leaveAll` finds the rooms through the user index, so it takes exactly the user's memberships out. -/
theorem related_leaveAll (h : Consistent m) (username r u : Bytes) :
    Related (m.leaveAll username).rooms r u ↔ Related m.rooms r u ∧ u ≠ username := by
  rw [leaveAll]
  split
  · next hnone =>
    refine ⟨fun hu => ⟨hu, ?_⟩, fun hu => hu.1⟩
    rintro rfl
    exact not_related_of_none hnone ((h.linked.inverse r u).mp hu)
  · next rooms hrooms =>
    show Related (rooms.toList.foldl (dropMember username) m.rooms) r u ↔ _
    rw [related_foldl_dropMember]
    refine and_congr_right fun hu => not_congr ⟨fun hmem => hmem.2, ?_⟩
    rintro rfl
    have hr : r ∈ rooms := (related_iff_mem hrooms).mp ((h.linked.inverse r u).mp hu)
    exact ⟨Std.ExtTreeSet.mem_toList.mpr hr, rfl⟩

theorem mem_rooms_leaveAll (username r : Bytes) : r ∈ (m.leaveAll username).rooms ↔ r ∈ m.rooms := by
  rw [leaveAll]
  split
  · rfl
  · exact mem_foldl_dropMember username _ r m.rooms

/-- It takes the user out of the user index altogether. -/
theorem related_userRooms_leaveAll (username u r : Bytes) :
    Related (m.leaveAll username).userRooms u r ↔ Related m.userRooms u r ∧ u ≠ username := by
  rw [leaveAll]
  split
  · next hnone =>
    refine ⟨fun hu => ⟨hu, ?_⟩, fun hu => hu.1⟩
    rintro rfl
    exact not_related_of_none hnone hu
  · exact related_erase

/-! ### Each operation -/

/-- A method fails exactly where the operation does, and then changes nothing; otherwise it does what
the operation does. -/
structure Performs (m : RoomManager) (operation : RoomOperation) : Prop where
  fails : (operation.apply m).1.isSome ↔ operation.Fails m.membership
  unchanged : (operation.apply m).1.isSome → (operation.apply m).2 = m
  effect : (operation.apply m).1 = none →
    (operation.apply m).2.membership = operation.effect m.membership

theorem performs_of_error {operation : RoomOperation} (error : Bytes)
    (happly : operation.apply m = (some error, m)) (hfails : operation.Fails m.membership) :
    Performs m operation := by
  refine ⟨?_, ?_, ?_⟩
  · rw [happly]
    exact iff_of_true rfl hfails
  · rw [happly]
    exact fun _ => rfl
  · rw [happly]
    exact fun h => absurd h (by simp)

theorem performs_of_success {operation : RoomOperation} (m' : RoomManager)
    (happly : operation.apply m = (none, m')) (hfails : ¬ operation.Fails m.membership)
    (heffect : m'.membership = operation.effect m.membership) : Performs m operation := by
  refine ⟨?_, ?_, ?_⟩
  · rw [happly]
    exact iff_of_false (by simp) hfails
  · rw [happly]
    exact fun h => absurd h (by simp)
  · rw [happly]
    exact fun _ => heffect

/-- A membership that is there afterwards was there, or comes from the operation's effect. -/
theorem Performs.members {operation : RoomOperation} (h : Performs m operation) {u r : Bytes}
    (hmember : (u, r) ∈ (operation.apply m).2.membership.members) :
    (u, r) ∈ m.membership.members ∨
      (operation.apply m).1 = none ∧ (u, r) ∈ (operation.effect m.membership).members := by
  cases hresult : (operation.apply m).1 with
  | some error =>
    rw [h.unchanged (by rw [hresult]; rfl)] at hmember
    exact .inl hmember
  | none =>
    rw [h.effect hresult] at hmember
    exact .inr ⟨rfl, hmember⟩

/-- Two managers stand for the same when the rooms and the memberships are the same. -/
theorem membership_eq {v : Membership} (hrooms : ∀ r, r ∈ m.rooms ↔ r ∈ v.rooms)
    (hmembers : ∀ r u, Related m.rooms r u ↔ (u, r) ∈ v.members) : m.membership = v := by
  have hr : m.membership.rooms = v.rooms := Set.ext hrooms
  have hm : m.membership.members = v.members := Set.ext fun pair => hmembers pair.2 pair.1
  exact Membership.ext hr hm

theorem performs_createRoom (m : RoomManager) (room : Bytes) : Performs m (.createRoom room) := by
  by_cases hvalid : isValidName room = false
  · refine performs_of_error (ascii "invalid room name") ?_ (.inl hvalid)
    rw [RoomOperation.apply, createRoom, if_pos hvalid]
  by_cases hexists : m.rooms[room]?.isSome
  · refine performs_of_error (ascii "room already exists") ?_ (.inr ?_)
    · rw [RoomOperation.apply, createRoom, if_neg hvalid, if_pos hexists]
    · exact Std.ExtTreeMap.mem_iff_isSome_getElem?.mpr hexists
  have hnone : m.rooms[room]? = none := by simpa using hexists
  refine performs_of_success { m with rooms := m.rooms.insert room ∅ } ?_ ?_ ?_
  · rw [RoomOperation.apply, createRoom, if_neg hvalid, if_neg hexists]
  · rintro (h | h)
    · exact hvalid h
    · exact hexists (Std.ExtTreeMap.mem_iff_isSome_getElem?.mp h)
  · refine membership_eq (fun r => ?_) (fun r u => related_createRoom hnone r u)
    show r ∈ m.rooms.insert room ∅ ↔ r ∈ insert room {r | r ∈ m.rooms}
    rw [Tables.mem_insert, Set.mem_insert_iff, eq_comm]
    exact Iff.rfl

theorem performs_joinRoom (m : RoomManager) (room username : Bytes) :
    Performs m (.joinRoom room username) := by
  cases hroom : m.rooms[room]? with
  | none =>
    refine performs_of_error (ascii "room does not exist") ?_ ?_
    · rw [RoomOperation.apply, joinRoom, hroom]
    · show room ∉ m.rooms
      rw [mem_rooms_iff, hroom]
      simp
  | some members =>
    refine performs_of_success (m.joinRoom room username).2 ?_ ?_ ?_
    · rw [RoomOperation.apply, joinRoom, hroom]
    · exact not_not.mpr (mem_rooms_iff.mpr ⟨members, hroom⟩)
    · rw [joinRoom, hroom]
      refine membership_eq (fun r => mem_insert_of_some hroom r) (fun r u => ?_)
      show Related (m.rooms.insert room (members.insert username)) r u ↔ _
      rw [related_add (by rw [hroom, Option.getD_some])]
      show _ ↔ (u, r) = (username, room) ∨ Related m.rooms r u
      rw [Prod.mk.injEq, and_comm]

theorem performs_leaveRoom (m : RoomManager) (room username : Bytes) :
    Performs m (.leaveRoom room username) := by
  cases hroom : m.rooms[room]? with
  | none =>
    refine performs_of_error (ascii "room does not exist") ?_
      (.inl (not_related_of_none hroom))
    rw [RoomOperation.apply, leaveRoom, hroom]
  | some members =>
    by_cases hmember : members.contains username
    · refine performs_of_success (m.leaveRoom room username).2 ?_ ?_ ?_
      · rw [RoomOperation.apply, leaveRoom, hroom]
        dsimp only
        rw [if_pos hmember]
      · rintro (h | h)
        · exact h ((related_iff_mem hroom).mpr hmember)
        · exact h (mem_rooms_iff.mpr ⟨members, hroom⟩)
      · rw [leaveRoom, hroom]
        dsimp only
        rw [if_pos hmember]
        refine membership_eq (fun r => mem_insert_of_some hroom r) (fun r u => ?_)
        show Related (m.rooms.insert room (members.erase username)) r u ↔ _
        rw [related_remove hroom]
        show _ ↔ Related m.rooms r u ∧ ¬ (u, r) = (username, room)
        rw [Prod.mk.injEq, and_comm (a := u = username)]
    · refine performs_of_error (ascii "user is not in room") ?_ (.inl fun h => ?_)
      · rw [RoomOperation.apply, leaveRoom, hroom]
        dsimp only
        rw [if_neg hmember]
      · exact hmember ((related_iff_mem hroom).mp h)

theorem performs_leaveAll (h : Consistent m) (username : Bytes) : Performs m (.leaveAll username) :=
  performs_of_success (m.leaveAll username) rfl id
    (membership_eq (fun r => mem_rooms_leaveAll username r) fun r u => related_leaveAll h username r u)

/-- **Every operation acts on the relation as specified.** -/
theorem Consistent.performs (h : Consistent m) (operation : RoomOperation) : Performs m operation := by
  cases operation with
  | createRoom room => exact performs_createRoom m room
  | joinRoom room username => exact performs_joinRoom m room username
  | leaveRoom room username => exact performs_leaveRoom m room username
  | leaveAll username => exact performs_leaveAll h username

/-! ### The indexes stay linked -/

theorem Consistent.createRoom (h : Consistent m) (room : Bytes) :
    Consistent (m.createRoom room).2 := by
  rw [RoomManager.createRoom]
  split_ifs with hvalid hexists
  · exact h
  · exact h
  · have hnone : m.rooms[room]? = none := by simpa using hexists
    refine ⟨⟨fun r u => ?_, h.linked.tight⟩, fun r hr => ?_⟩
    · exact (related_createRoom hnone r u).trans (h.linked.inverse r u)
    · rcases (Tables.mem_insert ..).mp hr with rfl | hr
      · simpa using hvalid
      · exact h.valid r hr

theorem Consistent.joinRoom (h : Consistent m) (room username : Bytes) :
    Consistent (m.joinRoom room username).2 := by
  rw [RoomManager.joinRoom]
  split
  · exact h
  · next members hroom =>
    refine ⟨⟨fun r u => ?_, h.linked.tight.insert Std.ExtTreeSet.insert_ne_empty⟩, fun r hr => ?_⟩
    · rw [related_add (by rw [hroom, Option.getD_some]), related_add rfl, h.linked.inverse,
        and_comm]
    · exact h.valid r ((mem_insert_of_some hroom r).mp hr)

theorem Consistent.leaveRoom (h : Consistent m) (room username : Bytes) :
    Consistent (m.leaveRoom room username).2 := by
  rw [RoomManager.leaveRoom]
  split
  · exact h
  · next members hroom =>
    split_ifs
    · refine ⟨⟨fun r u => ?_, tight_forgetRoom h.linked.tight room username⟩, fun r hr => ?_⟩
      · rw [related_remove hroom, related_forgetRoom, h.linked.inverse, and_comm (a := r = room)]
      · exact h.valid r ((mem_insert_of_some hroom r).mp hr)
    · exact h

theorem Consistent.leaveAll (h : Consistent m) (username : Bytes) :
    Consistent (m.leaveAll username) := by
  refine ⟨⟨fun r u => ?_, ?_⟩, fun r hr => h.valid r ((mem_rooms_leaveAll username r).mp hr)⟩
  · rw [related_leaveAll h, related_userRooms_leaveAll, h.linked.inverse]
  · rw [RoomManager.leaveAll]
    split
    · exact h.linked.tight
    · exact h.linked.tight.erase

/-- **One operation keeps the indexes linked, …** -/
theorem Consistent.apply (h : Consistent m) (operation : RoomOperation) :
    Consistent (operation.apply m).2 := by
  cases operation with
  | createRoom room => exact h.createRoom room
  | joinRoom room username => exact h.joinRoom room username
  | leaveRoom room username => exact h.leaveRoom room username
  | leaveAll username => exact h.leaveAll username

/-- **… and so does a run of operations.** -/
theorem Consistent.applyAll (h : Consistent m) (operations : List RoomOperation) :
    Consistent (m.applyAll operations) := by
  induction operations generalizing m with
  | nil => exact h
  | cons operation operations ih => exact ih (h.apply operation)

/-! ### What is read -/

/-- The members are read in order and once each, by one of them. -/
theorem membersForMessage_eq_ok {room username : Bytes} {members : List Bytes}
    (h : m.membersForMessage room username = .ok members) :
    members.Pairwise (compare · · = .lt) ∧ ∀ u, u ∈ members ↔ Related m.rooms room u := by
  rw [membersForMessage] at h
  split at h
  · exact absurd h (by simp)
  · next set hroom =>
    split_ifs at h
    obtain rfl := Except.ok.inj h
    refine ⟨Std.ExtTreeSet.ordered_toList, fun u => ?_⟩
    rw [Std.ExtTreeSet.mem_toList, related_iff_mem hroom]

theorem membersForMessage_isOk_iff {room username : Bytes} :
    (∃ members, m.membersForMessage room username = .ok members) ↔ Related m.rooms room username := by
  rw [membersForMessage]
  cases hroom : m.rooms[room]? with
  | none => exact iff_of_false (by simp) (not_related_of_none hroom)
  | some set =>
    rw [related_iff_mem hroom]
    by_cases hmember : set.contains username
    · exact iff_of_true ⟨set.toList, by simp [hmember]⟩ hmember
    · exact iff_of_false (by simp [hmember]) hmember

/-- `roomCount` counts the rooms that have a member. -/
theorem encard_rooms (m : RoomManager) :
    {room | ∃ username, Related m.rooms room username}.encard = m.roomCount := by
  let entries := m.rooms.toList.filter fun room => !room.2.isEmpty
  have hnodup : (entries.map Prod.fst).Nodup := by
    have hdistinct : (m.rooms.toList.map Prod.fst).Nodup := by
      rw [Std.ExtTreeMap.map_fst_toList_eq_keys]
      exact Std.ExtTreeMap.nodup_keys
    exact (List.filter_sublist.map Prod.fst).nodup hdistinct
  have hset : {room | ∃ username, Related m.rooms room username} =
      ((entries.map Prod.fst).toFinset : Set Bytes) := by
    ext room
    rw [Finset.mem_coe, List.mem_toFinset, List.mem_map]
    constructor
    · rintro ⟨u, set, hroom, hu⟩
      refine ⟨(room, set), List.mem_filter.mpr ⟨?_, ?_⟩, rfl⟩
      · exact Std.ExtTreeMap.mem_toList_iff_getElem?_eq_some.mpr hroom
      · have hne : set ≠ ∅ := by
          rintro rfl
          exact Std.ExtTreeSet.not_mem_empty hu
        simpa [Std.ExtTreeSet.isEmpty_iff] using hne
    · rintro ⟨⟨_, set⟩, hmem, rfl⟩
      obtain ⟨hroom, hne⟩ := List.mem_filter.mp hmem
      have hsome : m.rooms[_]? = some set := Std.ExtTreeMap.mem_toList_iff_getElem?_eq_some.mp hroom
      have hset : set ≠ ∅ := by simpa [Std.ExtTreeSet.isEmpty_iff] using hne
      by_contra hnobody
      refine hset (Std.ExtTreeSet.eq_empty_iff_forall_not_mem.mpr fun u hu => ?_)
      exact hnobody ⟨u, set, hsome, hu⟩
  rw [hset, Set.encard_coe_eq_coe_finsetCard, List.toFinset_card_of_nodup hnodup, List.length_map]
  rfl

/-- **The two indexes never disagree.**  After any run of operations from the empty manager each index
is the reverse of the other, no user has an empty set, rooms have valid names, every further operation
acts on the relation as specified, and what is read is what the relation says. -/
theorem indexes_agree_after_any_run (operations : List RoomOperation) :
    let m := RoomManager.empty.applyAll operations
    (∀ u r : Bytes, (∃ members, m.rooms[r]? = some members ∧ u ∈ members) ↔
      ∃ rooms, m.userRooms[u]? = some rooms ∧ r ∈ rooms) ∧
    (∀ u : Bytes, m.userRooms[u]? ≠ some ∅) ∧
    (∀ r ∈ m.rooms, isValidName r = true) ∧
    (∀ operation, Performs m operation) ∧
    (∀ r u : Bytes, (∃ members, m.membersForMessage r u = .ok members) ↔
      (u, r) ∈ m.membership.members) ∧
    (∀ (r u : Bytes) (members : List Bytes), m.membersForMessage r u = .ok members →
      members.Pairwise (compare · · = .lt) ∧ ∀ v, v ∈ members ↔ (v, r) ∈ m.membership.members) ∧
    {r | ∃ u, (u, r) ∈ m.membership.members}.encard = m.roomCount := by
  intro m
  have h : Consistent m := Consistent.empty.applyAll operations
  exact ⟨fun u r => h.linked.inverse r u, h.linked.tight, h.valid, h.performs,
    fun r u => membersForMessage_isOk_iff, fun r u members => membersForMessage_eq_ok,
    encard_rooms m⟩

end RoomManager

end ChatService
