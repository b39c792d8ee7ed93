import ChatService.Common.Json
import ChatService.Foundation.Tables

/-!
# Names and responses (`common/Protocol.cc`)

What the server uses of the protocol helpers: the test for user and room names, the list of online
users, and the two plain responses.  `isValidCallId` of `ChatServer.cc` is the same test with another
limit, so both are `isIdentifier` at their own size.
-/

namespace ChatService

/-- The loop that `isValidName` and `isValidCallId` share: not empty, not longer than `limit`, and
nothing but letters, digits, `_`, `-` and `.`. -/
def isIdentifier (limit : ℕ) (value : Bytes) : Bool :=
  if value = [] ∨ value.length > limit then false
  else value.all fun ch => isalnum ch || ch == 0x5f || ch == 0x2d || ch == 0x2e

def isValidName (name : Bytes) : Bool := isIdentifier 32 name

def isValidCallId (callId : Bytes) : Bool := isIdentifier 128 callId

/-- The values with commas between them. -/
def joinList (values : List Bytes) : Bytes := List.intercalate [Byte.comma] values

def makeOkResponse (message : Bytes) : JsonObject :=
  ((∅ : JsonObject).insert (ascii "type") (ascii "ok")).insert (ascii "message") message

def makeErrorResponse (message : Bytes) : JsonObject :=
  ((∅ : JsonObject).insert (ascii "type") (ascii "error")).insert (ascii "message") message

/-- `fieldOrEmpty` of `ChatServer.cc` and `ChatSession.cc`. -/
def fieldOrEmpty (object : JsonObject) (key : String) : Bytes := (object[ascii key]?).getD []

theorem fieldOrEmpty_empty (key : String) : fieldOrEmpty ∅ key = [] := by
  simp [fieldOrEmpty]

theorem fieldOrEmpty_insert_self (object : JsonObject) (key : String) (value : Bytes) :
    fieldOrEmpty (object.insert (ascii key) value) key = value := by
  rw [fieldOrEmpty, Tables.getElem?_insert_self]
  rfl

theorem fieldOrEmpty_insert_of_ne (object : JsonObject) {key key' : String} (value : Bytes)
    (h : ascii key ≠ ascii key') :
    fieldOrEmpty (object.insert (ascii key) value) key' = fieldOrEmpty object key' := by
  rw [fieldOrEmpty, Tables.getElem?_insert_of_ne h, fieldOrEmpty]

/-- A number written by an output stream. -/
def int64ToString (value : ℤ) : Bytes := ascii (toString value)

/-- An identifier is not empty. -/
theorem ne_nil_of_isIdentifier {limit : ℕ} {value : Bytes} (h : isIdentifier limit value = true) :
    value ≠ [] := by
  rintro rfl
  simp [isIdentifier] at h

theorem ne_nil_of_isValidName {name : Bytes} (h : isValidName name = true) : name ≠ [] :=
  ne_nil_of_isIdentifier h

end ChatService
