import ChatService.Foundation.Bytes
import Mathlib.Data.List.Sort

/-!
# `ChatStorage`: the message table (`server/ChatStorage.cc`)

The table is the list of its rows in the order of insertion.  SQLite itself is not part of the source;
what is used of it is modelled as documented: a text bound with a length is stored as those bytes, a
`SELECT` filters, orders and cuts, and `sqlite3_column_text` points at the stored bytes followed by a
NUL, which `columnText` reads as a C string.  Neither whether an `INSERT` succeeds nor the id that
`AUTOINCREMENT` gives to the row is up to the program: ids are a parameter (`RowIds`) of which
nothing is used but that they increase.
-/

namespace ChatService

def kDefaultHistoryLimit : ℤ := 50

def kMaxHistoryLimit : ℤ := 500

/-- A row of `messages`, which is also what `messageFromStatement` reads; an absent text is empty. -/
structure Message where
  id : ℤ
  conversationType : Bytes
  conversationId : Bytes
  sender : Bytes
  receiver : Bytes
  roomId : Bytes
  content : Bytes
  createdAt : ℤ
deriving DecidableEq, Repr

/-- The ids that `AUTOINCREMENT` hands out: each is larger than all before it. -/
structure RowIds where
  next : ℤ → ℤ
  increases : ∀ last, last < next last

namespace RowIds

/-- One by one, as SQLite counts in a table from which nothing is deleted. -/
def counting : RowIds := ⟨fun last => last + 1, Int.lt_succ⟩

/-- The id of the `n`-th row of a table, counted from one. -/
def nth (ids : RowIds) (n : ℕ) : ℤ := ids.next^[n] 0

theorem nth_succ (ids : RowIds) (n : ℕ) : ids.nth (n + 1) = ids.next (ids.nth n) :=
  Function.iterate_succ_apply' ids.next n 0

theorem nth_lt_nth (ids : RowIds) {m n : ℕ} (h : m < n) : ids.nth m < ids.nth n := by
  induction h with
  | refl =>
    rw [nth_succ]
    exact ids.increases (ids.nth m)
  | step _ ih =>
    rw [nth_succ]
    exact Int.lt_trans ih (ids.increases _)

end RowIds

/-- `lastId` is the largest id that has been handed out, zero if none has. -/
structure ChatStorage where
  rows : List Message
  lastId : ℤ
  ids : RowIds

namespace ChatStorage

/-- The table as `init` creates it. -/
def created (ids : RowIds) : ChatStorage := ⟨[], 0, ids⟩

def empty : ChatStorage := created .counting

/-- The id of the row that is inserted next. -/
def nextId (storage : ChatStorage) : ℤ := storage.ids.next storage.lastId

theorem lastId_lt_nextId (storage : ChatStorage) : storage.lastId < storage.nextId :=
  storage.ids.increases storage.lastId

def sanitizeLimit (limit : ℤ) : ℤ :=
  if limit ≤ 0 then kDefaultHistoryLimit
  else if limit > kMaxHistoryLimit then kMaxHistoryLimit
  else limit

def privateConversationId (userA userB : Bytes) : Bytes :=
  if compare userA userB = .lt then ascii "private:" ++ userA ++ ascii ":" ++ userB
  else ascii "private:" ++ userB ++ ascii ":" ++ userA

/-- A successful `INSERT` under the next id; `none` for a failed one. -/
def insert (storage : ChatStorage) (saved : Bool) (row : ℤ → Message) : Option ℤ × ChatStorage :=
  if saved then
    let id := storage.nextId
    (some id, { storage with rows := storage.rows ++ [row id], lastId := id })
  else (none, storage)

def savePrivateMessage (storage : ChatStorage) (saved : Bool) (sender receiver content : Bytes)
    (timestamp : ℤ) : Option ℤ × ChatStorage :=
  storage.insert saved fun id =>
    { id, conversationType := ascii "private"
      conversationId := privateConversationId sender receiver
      sender, receiver, roomId := [], content, createdAt := timestamp }

def saveRoomMessage (storage : ChatStorage) (saved : Bool) (roomId sender content : Bytes)
    (timestamp : ℤ) : Option ℤ × ChatStorage :=
  storage.insert saved fun id =>
    { id, conversationType := ascii "room", conversationId := roomId
      sender, receiver := [], roomId, content, createdAt := timestamp }

/-- The column's bytes, read as a C string. -/
def columnText (text : Bytes) : Bytes := cString text

def messageFromStatement (row : Message) : Message :=
  { id := row.id
    conversationType := columnText row.conversationType
    conversationId := columnText row.conversationId
    sender := columnText row.sender
    receiver := columnText row.receiver
    roomId := columnText row.roomId
    content := columnText row.content
    createdAt := row.createdAt }

/-- `ORDER BY created_at DESC, id DESC`. -/
def newerFirst (x y : Message) : Prop :=
  y.createdAt < x.createdAt ∨ (x.createdAt = y.createdAt ∧ y.id ≤ x.id)

instance : DecidableRel newerFirst := fun x y =>
  inferInstanceAs (Decidable (y.createdAt < x.createdAt ∨ (x.createdAt = y.createdAt ∧ y.id ≤ x.id)))

/-- The `SELECT` of both history queries, and the reversal of its result. -/
def loadHistory (storage : ChatStorage) (conversationType conversationId : Bytes) (limit before : ℤ) :
    List Message :=
  let rows := storage.rows.filter fun row =>
    row.conversationType = conversationType ∧ row.conversationId = conversationId ∧
      (before ≤ 0 ∨ row.createdAt < before)
  (((rows.insertionSort newerFirst).take (sanitizeLimit limit).toNat).map messageFromStatement).reverse

def loadPrivateHistory (storage : ChatStorage) (userA userB : Bytes) (limit before : ℤ) :
    List Message :=
  storage.loadHistory (ascii "private") (privateConversationId userA userB) limit before

def loadRoomHistory (storage : ChatStorage) (roomId : Bytes) (limit before : ℤ) : List Message :=
  storage.loadHistory (ascii "room") roomId limit before

end ChatStorage

end ChatService
