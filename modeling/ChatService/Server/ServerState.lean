import ChatService.Foundation.AtomicProgram
import ChatService.Server.CallManager
import ChatService.Server.OnMessage
import ChatService.Server.Outgoing
import ChatService.Server.RoomManager
import ChatService.Server.UserManager

/-!
# The server's shared state, and the atomic actions on it

The handlers of `ChatServer` share the three managers, the storage, and the sessions and sockets of the
connections.  Each public method of a manager, each access to a session's name, each storage call and
each `TcpConnection::send` takes one lock (or one loop task), so each is one action `Op`, and a handler
is a program of such actions.  `exec` is what an action does and answers; what is not up to the program,
the clock and whether SQLite stored a row, comes from `Env`.

Every `send` is recorded in `sent`, with whether the connection was in `kConnected`, since
`TcpConnection::send` drops the line in any other state.  This is the order of the calls.  Who calls decides how
the line goes on, at once or through the queue of the connection's loop; that is in `RoomWires`, on the history
of a run, which knows the thread of each call.
-/

namespace ChatService

open AtomicProgram

/-- `TcpConnection::StateE`. -/
inductive TcpState where
  | kDisconnected
  | kConnecting
  | kConnected
  | kDisconnecting
deriving DecidableEq, Repr

/-- A connection and the `ChatSession` in its context; the name of a session that is not logged in is
empty. -/
structure Connection where
  tcpState : TcpState
  username : Bytes
deriving DecidableEq

/-- One call of `TcpConnection::send`; `queued` tells whether it was in `kConnected`. -/
structure Sent where
  connection : Conn
  payload : Outgoing
  queued : Bool
deriving DecidableEq

structure ServerState where
  userManager : UserManager
  roomManager : RoomManager
  callManager : CallManager
  storage : ChatStorage
  connections : Conn → Connection
  sent : List Sent

/-- Nobody has connected yet; the database may hold messages from before. -/
def ServerState.initial (storage : ChatStorage) : ServerState where
  userManager := .empty
  roomManager := .empty
  callManager := .empty
  storage := storage
  connections := fun _ => ⟨.kConnecting, []⟩
  sent := []

/-- What the program does not decide: the clock, in seconds, and whether an `INSERT` succeeds. -/
structure Env where
  now : ℤ
  saved : Bool

inductive Op where
  | username (connection : Conn)
  | setUsername (connection : Conn) (username : Bytes)
  | clearUsername (connection : Conn)
  | userLogin (username : Bytes) (connection : Conn)
  | userLogout (username : Bytes) (connection : Conn)
  | userFind (username : Bytes)
  | userFindMany (usernames : List Bytes)
  | onlineUsers
  | createRoom (room : Bytes)
  | joinRoom (room username : Bytes)
  | leaveRoom (room username : Bytes)
  | leaveAll (username : Bytes)
  | membersForMessage (room username : Bytes)
  | startCall (caller callee callId : Bytes)
  | acceptCall (callee caller callId : Bytes)
  | rejectCall (callee caller callId : Bytes)
  | cancelCall (caller callee callId : Bytes)
  | timeoutCall (caller callee callId : Bytes)
  | hangupCall (username peer callId : Bytes)
  | validateSignaling (username peer callId type : Bytes)
  | removeUser (username : Bytes)
  | currentTimeSeconds
  | savePrivateMessage (sender receiver content : Bytes) (timestamp : ℤ)
  | saveRoomMessage (room sender content : Bytes) (timestamp : ℤ)
  | loadPrivateHistory (userA userB : Bytes) (limit before : ℤ)
  | loadRoomHistory (room : Bytes) (limit before : ℤ)
  | send (connection : Conn) (payload : Outgoing)
  | forceClose (connection : Conn)
deriving DecidableEq

/-- What an action answers. -/
abbrev Op.Response : Op → Type
  | username _ => Bytes
  | setUsername _ _ => Unit
  | clearUsername _ => Unit
  | userLogin _ _ => Option Bytes
  | userLogout _ _ => Unit
  | userFind _ => Option Conn
  | userFindMany _ => List Conn
  | onlineUsers => List Bytes
  | createRoom _ => Option Bytes
  | joinRoom _ _ => Option Bytes
  | leaveRoom _ _ => Option Bytes
  | leaveAll _ => Unit
  | membersForMessage _ _ => Except Bytes (List Bytes)
  | startCall _ _ _ => Option Bytes
  | acceptCall _ _ _ => Option Bytes
  | rejectCall _ _ _ => Option Bytes
  | cancelCall _ _ _ => Option Bytes
  | timeoutCall _ _ _ => Option Bytes
  | hangupCall _ _ _ => Option Bytes
  | validateSignaling _ _ _ _ => Option Bytes
  | removeUser _ => Option CallDisconnectEvent
  | currentTimeSeconds => ℤ
  | savePrivateMessage _ _ _ _ => Option ℤ
  | saveRoomMessage _ _ _ _ => Option ℤ
  | loadPrivateHistory _ _ _ _ => List Message
  | loadRoomHistory _ _ _ => List Message
  | send _ _ => Unit
  | forceClose _ => Unit

namespace ServerState

def setConnection (s : ServerState) (connection : Conn) (value : Connection) : ServerState :=
  { s with connections := Function.update s.connections connection value }

def withUsername (s : ServerState) (connection : Conn) (username : Bytes) : ServerState :=
  s.setConnection connection { s.connections connection with username := username }

def withTcpState (s : ServerState) (connection : Conn) (tcpState : TcpState) : ServerState :=
  s.setConnection connection { s.connections connection with tcpState := tcpState }

theorem username_withTcpState (s : ServerState) (connection : Conn) (tcpState : TcpState) (c : Conn) :
    ((s.withTcpState connection tcpState).connections c).username = (s.connections c).username := by
  by_cases hc : c = connection
  · subst hc
    simp [withTcpState, setConnection]
  · simp [withTcpState, setConnection, Function.update_of_ne hc]

theorem username_withUsername_self (s : ServerState) (connection : Conn) (username : Bytes) :
    ((s.withUsername connection username).connections connection).username = username := by
  simp [withUsername, setConnection]

theorem username_withUsername_of_ne (s : ServerState) {connection c : Conn} (hc : c ≠ connection)
    (username : Bytes) :
    ((s.withUsername connection username).connections c).username = (s.connections c).username := by
  simp [withUsername, setConnection, Function.update_of_ne hc]

/-- `TcpConnection::send`. -/
def send (s : ServerState) (connection : Conn) (payload : Outgoing) : ServerState :=
  { s with
    sent := s.sent ++
      [⟨connection, payload, decide ((s.connections connection).tcpState = .kConnected)⟩] }

/-- `TcpConnection::forceClose`, up to the callback, which is a handler of its own. -/
def forceClose (s : ServerState) (connection : Conn) : ServerState :=
  match (s.connections connection).tcpState with
  | .kConnected => s.withTcpState connection .kDisconnecting
  | _ => s

theorem forceClose_eq (s : ServerState) (connection : Conn) :
    s.forceClose connection = s.withTcpState connection
      (if (s.connections connection).tcpState = .kConnected then .kDisconnecting
        else (s.connections connection).tcpState) := by
  rw [forceClose]
  split
  · next h => rw [if_pos h]
  · next h =>
    rw [if_neg h]
    show s = { s with connections := Function.update s.connections connection _ }
    rw [Function.update_eq_self]

/-- A manager method that answers and changes the calls. -/
def onCalls {α : Type} (s : ServerState) (result : α × CallManager) : α × ServerState :=
  (result.1, { s with callManager := result.2 })

/-- A manager method that answers and changes the rooms. -/
def onRooms {α : Type} (s : ServerState) (result : α × RoomManager) : α × ServerState :=
  (result.1, { s with roomManager := result.2 })

/-- A storage call that answers and may add a row. -/
def onStorage {α : Type} (s : ServerState) (result : α × ChatStorage) : α × ServerState :=
  (result.1, { s with storage := result.2 })

end ServerState

/-- What an action does. -/
def exec (env : Env) : (op : Op) → ServerState → op.Response × ServerState
  | .username connection, s => ((s.connections connection).username, s)
  | .setUsername connection username, s => ((), s.withUsername connection username)
  | .clearUsername connection, s => ((), s.withUsername connection [])
  | .userLogin username connection, s =>
    ((s.userManager.login username connection).1,
      { s with userManager := (s.userManager.login username connection).2 })
  | .userLogout username connection, s =>
    ((), { s with userManager := s.userManager.logout username connection })
  | .userFind username, s => (s.userManager.find username, s)
  | .userFindMany usernames, s => (s.userManager.findMany usernames, s)
  | .onlineUsers, s => (s.userManager.onlineUsers, s)
  | .createRoom room, s => s.onRooms (s.roomManager.createRoom room)
  | .joinRoom room username, s => s.onRooms (s.roomManager.joinRoom room username)
  | .leaveRoom room username, s => s.onRooms (s.roomManager.leaveRoom room username)
  | .leaveAll username, s => ((), { s with roomManager := s.roomManager.leaveAll username })
  | .membersForMessage room username, s => (s.roomManager.membersForMessage room username, s)
  | .startCall caller callee callId, s => s.onCalls (s.callManager.startCall caller callee callId)
  | .acceptCall callee caller callId, s => s.onCalls (s.callManager.acceptCall callee caller callId)
  | .rejectCall callee caller callId, s => s.onCalls (s.callManager.rejectCall callee caller callId)
  | .cancelCall caller callee callId, s => s.onCalls (s.callManager.cancelCall caller callee callId)
  | .timeoutCall caller callee callId, s => s.onCalls (s.callManager.timeoutCall caller callee callId)
  | .hangupCall username peer callId, s => s.onCalls (s.callManager.hangupCall username peer callId)
  | .validateSignaling username peer callId type, s =>
    (s.callManager.validateSignaling username peer callId type, s)
  | .removeUser username, s => s.onCalls (s.callManager.removeUser username)
  | .currentTimeSeconds, s => (env.now, s)
  | .savePrivateMessage sender receiver content timestamp, s =>
    s.onStorage (s.storage.savePrivateMessage env.saved sender receiver content timestamp)
  | .saveRoomMessage room sender content timestamp, s =>
    s.onStorage (s.storage.saveRoomMessage env.saved room sender content timestamp)
  | .loadPrivateHistory userA userB limit before, s =>
    (s.storage.loadPrivateHistory userA userB limit before, s)
  | .loadRoomHistory room limit before, s => (s.storage.loadRoomHistory room limit before, s)
  | .send connection payload, s => ((), s.send connection payload)
  | .forceClose connection, s => ((), s.forceClose connection)

/-- The `send` that an action is. -/
def Op.sends (s : ServerState) : Op → List Sent
  | .send connection payload =>
    [⟨connection, payload, decide ((s.connections connection).tcpState = .kConnected)⟩]
  | _ => []

/-- Nothing that was sent is taken back. -/
theorem sent_exec (env : Env) (op : Op) (s : ServerState) :
    (exec env op s).2.sent = s.sent ++ op.sends s := by
  cases op with
  | send connection payload => rfl
  | forceClose connection =>
    show (s.forceClose connection).sent = s.sent ++ []
    rw [ServerState.forceClose_eq, List.append_nil]
    rfl
  | _ => exact (List.append_nil _).symm

/-- A handler: a program of atomic actions. -/
abbrev Handler (α : Type) := Prog Op Op.Response α

/-- The handler that takes one action. -/
abbrev act (op : Op) : Handler op.Response := Prog.perform op

end ChatService
