import ChatService.Common.Protocol
import Std.Data.ExtTreeSet.Lemmas

/-!
# `RoomManager`: who is in which room (`server/RoomManager.cc`)

`rooms` gives each room its members, `userRooms` gives each user who is in a room the rooms.  Every
public method runs under the manager's lock; a method that stores a text in `*error` returns it, and
`none` stands for `true`.
-/

namespace ChatService

abbrev NameSet := Std.ExtTreeSet Bytes compare

structure RoomManager where
  rooms : Std.ExtTreeMap Bytes NameSet compare
  userRooms : Std.ExtTreeMap Bytes NameSet compare
deriving DecidableEq

namespace RoomManager

def empty : RoomManager := ⟨∅, ∅⟩

def createRoom (m : RoomManager) (room : Bytes) : Option Bytes × RoomManager :=
  if isValidName room = false then (some (ascii "invalid room name"), m)
  else if m.rooms[room]?.isSome then (some (ascii "room already exists"), m)
  else (none, { m with rooms := m.rooms.insert room ∅ })

def joinRoom (m : RoomManager) (room username : Bytes) : Option Bytes × RoomManager :=
  match m.rooms[room]? with
  | none => (some (ascii "room does not exist"), m)
  | some members =>
    (none,
      { rooms := m.rooms.insert room (members.insert username)
        userRooms := m.userRooms.insert username ((m.userRooms[username]?.getD ∅).insert room) })

/-- The second half of `leaveRoom`: the room is taken out of the user's set, and an empty set is
dropped. -/
def forgetRoom (userRooms : Std.ExtTreeMap Bytes NameSet compare) (room username : Bytes) :
    Std.ExtTreeMap Bytes NameSet compare :=
  match userRooms[username]? with
  | none => userRooms
  | some rooms =>
    if (rooms.erase room).isEmpty then userRooms.erase username
    else userRooms.insert username (rooms.erase room)

def leaveRoom (m : RoomManager) (room username : Bytes) : Option Bytes × RoomManager :=
  match m.rooms[room]? with
  | none => (some (ascii "room does not exist"), m)
  | some members =>
    if members.contains username then
      (none,
        { rooms := m.rooms.insert room (members.erase username)
          userRooms := forgetRoom m.userRooms room username })
    else (some (ascii "user is not in room"), m)

/-- One round of the loop of `leaveAll`. -/
def dropMember (username : Bytes) (rooms : Std.ExtTreeMap Bytes NameSet compare) (room : Bytes) :
    Std.ExtTreeMap Bytes NameSet compare :=
  match rooms[room]? with
  | none => rooms
  | some members => rooms.insert room (members.erase username)

def leaveAll (m : RoomManager) (username : Bytes) : RoomManager :=
  match m.userRooms[username]? with
  | none => m
  | some rooms =>
    { rooms := rooms.toList.foldl (dropMember username) m.rooms
      userRooms := m.userRooms.erase username }

/-- How many rooms have a member. -/
def roomCount (m : RoomManager) : ℕ := (m.rooms.toList.filter fun room => !room.2.isEmpty).length

/-- The members of a room in order, for one who is in it. -/
def membersForMessage (m : RoomManager) (room username : Bytes) : Except Bytes (List Bytes) :=
  match m.rooms[room]? with
  | none => .error (ascii "room does not exist")
  | some members =>
    if members.contains username then .ok members.toList
    else .error (ascii "user is not in room")

end RoomManager

end ChatService
