import ChatService.Common.Protocol
import ChatService.Foundation.Tables

/-!
# `UserManager`: who is online (`server/UserManager.cc`)

One map from user names to connections.  Every public method runs under the manager's lock; a method
that stores a text in `*error` returns it, and `none` stands for `true`.
-/

namespace ChatService

/-- A `TcpConnectionPtr`, up to identity. -/
abbrev Conn := ℕ

structure UserManager where
  users : Std.ExtTreeMap Bytes Conn compare
deriving DecidableEq

namespace UserManager

def empty : UserManager := ⟨∅⟩

def login (m : UserManager) (username : Bytes) (connection : Conn) : Option Bytes × UserManager :=
  if isValidName username = false then (some (ascii "invalid username"), m)
  else if m.users[username]?.isSome then (some (ascii "username is already online"), m)
  else (none, { m with users := m.users.insert username connection })

def logout (m : UserManager) (username : Bytes) (connection : Conn) : UserManager :=
  if m.users[username]? = some connection then { m with users := m.users.erase username } else m

def find (m : UserManager) (username : Bytes) : Option Conn := m.users[username]?

/-- The connections of those of `usernames` who are online, in the order of `usernames`. -/
def findMany (m : UserManager) (usernames : List Bytes) : List Conn := usernames.filterMap m.find

def onlineUsers (m : UserManager) : List Bytes := m.users.keys

/-- A login that succeeds binds a valid name that nobody had. -/
theorem login_eq_none {m : UserManager} {username : Bytes} {connection : Conn}
    (h : (m.login username connection).1 = none) :
    isValidName username = true ∧ m.users[username]? = none ∧
      (m.login username connection).2 = { m with users := m.users.insert username connection } := by
  rw [login] at h ⊢
  split_ifs at h ⊢ with hvalid honline
  · simp only [Bool.not_eq_true, Option.isSome_eq_false_iff, Option.isNone_iff_eq_none] at honline
    exact ⟨by simpa using hvalid, honline, rfl⟩

/-- A login that fails changes nothing. -/
theorem login_eq_some {m : UserManager} {username : Bytes} {connection : Conn} {error : Bytes}
    (h : (m.login username connection).1 = some error) : (m.login username connection).2 = m := by
  rw [login] at h ⊢
  split_ifs at h ⊢ <;> rfl

/-- After a logout the name is bound as before, except to the connection that logged out. -/
theorem logout_users (m : UserManager) (username : Bytes) (connection : Conn) (u : Bytes) :
    (m.logout username connection).users[u]? =
      if u = username ∧ m.users[u]? = some connection then none else m.users[u]? := by
  rw [logout]
  by_cases hown : m.users[username]? = some connection
  · rw [if_pos hown]
    show (m.users.erase username)[u]? = _
    by_cases hu : username = u
    · subst hu
      rw [Tables.getElem?_erase_self, if_pos ⟨rfl, hown⟩]
    · rw [Tables.getElem?_erase_of_ne hu, if_neg fun h => hu h.1.symm]
  · rw [if_neg hown, if_neg]
    rintro ⟨rfl, h⟩
    exact hown h

/-- A logout leaves the registrations of the other connections. -/
theorem users_logout_iff (m : UserManager) (username : Bytes) {connection c : Conn} (u : Bytes)
    (hc : c ≠ connection) :
    (m.logout username connection).users[u]? = some c ↔ m.users[u]? = some c := by
  rw [logout_users]
  split_ifs with hown
  · rw [hown.2]
    simp [Ne.symm hc]
  · exact Iff.rfl

/-- So does a login under a name that nobody has. -/
theorem users_insert_iff {m : UserManager} {username : Bytes} (hfree : m.users[username]? = none)
    {connection c : Conn} (u : Bytes) (hc : c ≠ connection) :
    (m.users.insert username connection)[u]? = some c ↔ m.users[u]? = some c := by
  by_cases hu : username = u
  · subst hu
    rw [Tables.getElem?_insert_self, hfree]
    simp [Ne.symm hc]
  · rw [Tables.getElem?_insert_of_ne hu]

end UserManager

end ChatService
