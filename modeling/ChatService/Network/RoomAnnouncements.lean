import ChatService.Client.RoomActions
import ChatService.QtClient.RoomActions

/-!
# What the clients announce about rooms

Both clients take a reply to be about the room that they remember.  The replies come in the order of the
requests, so an announcement is right as long as a room is remembered only when the requests without an answer
are about this room too.  A user who does not wait breaks this with two joins.
-/

namespace ChatService

namespace RoomSession

/-- **Every announcement is right** in a run of the web client, and in one of the Qt client, in which a pending
room is set only when all unanswered requests of its kind are about it. -/
theorem clients_announce_right (clock : ℕ → ℤ) (username : Bytes) (rooms : RoomManager) :
    (∀ (client : Web.ChatState) (events : List (SessionEvent Web.Input Web.JsObject)),
      Throughout (Web.client clock) (Waits (Web.client clock)) (start client username rooms) events →
        Throughout (Web.client clock) (AnnouncesRight (Web.client clock)) (start client username rooms) events) ∧
    ∀ (client : Qt.MainWindow) (events : List (SessionEvent Qt.Input Qt.QJsonObject)),
      Throughout (Qt.client clock) (Waits (Qt.client clock)) (start client username rooms) events →
        Throughout (Qt.client clock) (AnnouncesRight (Qt.client clock)) (start client username rooms) events :=
  ⟨fun client => announcements_right (Web.ChatState.lawful_client clock) client username rooms,
    fun client => announcements_right (Qt.MainWindow.lawful_client clock) client username rooms⟩

/-- Two rooms, `A` and `B`. -/
def twoRooms : RoomManager := ((RoomManager.empty.createRoom (ascii "A")).2.createRoom (ascii "B")).2

/-- The web client of a user who joins a room. -/
def webJoin (room : String) : List (SessionEvent Web.Input Web.JsObject) :=
  [.act (.openRoomDialog .join), .act (.submitRoomDialog room.toList)]

/-- Waiting for the first reply before the second join, and creating a room that is then joined. -/
theorem clients_announce_right_waiting :
    Throughout (Web.client fun _ => 0) (AnnouncesRight (Web.client fun _ => 0))
      (start { username := "u".toList, loggedIn := true } (ascii "u") twoRooms)
      (webJoin "A" ++ [.serve, .read] ++ webJoin "B" ++ [.serve, .serve, .read]) ∧
    Throughout (Qt.client fun _ => 0) (AnnouncesRight (Qt.client fun _ => 0))
      (start { currentUsername := "u".toList } (ascii "u") twoRooms)
      [.act (.createRoom "C".toList), .serve, .read, .serve, .read, .serve, .act (.joinRoom "A".toList), .serve,
        .read] :=
  ⟨(clients_announce_right (fun _ => 0) (ascii "u") twoRooms).1 _ _ (by decide +kernel),
    (clients_announce_right (fun _ => 0) (ascii "u") twoRooms).2 _ _ (by decide +kernel)⟩

/-- A user joins `A` and then `B` without waiting.  Upon the reply to the join of `A` either client announces
`B`. -/
theorem first_reply_announces_second_room :
    (¬ ∀ (clock : ℕ → ℤ) (client : Web.ChatState) (username : Bytes) (rooms : RoomManager)
        (events : List (SessionEvent Web.Input Web.JsObject)),
      Throughout (Web.client clock) (AnnouncesRight (Web.client clock)) (start client username rooms) events) ∧
    ¬ ∀ (clock : ℕ → ℤ) (client : Qt.MainWindow) (username : Bytes) (rooms : RoomManager)
        (events : List (SessionEvent Qt.Input Qt.QJsonObject)),
      Throughout (Qt.client clock) (AnnouncesRight (Qt.client clock)) (start client username rooms) events := by
  constructor
  · intro hright
    have hrun := hright (fun _ => 0) { username := "u".toList, loggedIn := true } (ascii "u") twoRooms
      (webJoin "A" ++ webJoin "B" ++ [.serve, .read])
    exact absurd hrun (by decide +kernel)
  · intro hright
    have hrun := hright (fun _ => 0) { currentUsername := "u".toList } (ascii "u") twoRooms
      [.act (.joinRoom "A".toList), .act (.joinRoom "B".toList), .serve, .read]
    exact absurd hrun (by decide +kernel)

end RoomSession

end ChatService
