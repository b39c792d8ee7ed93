import ChatService.Common.Protocol
import ChatService.Foundation.Words

/-!
# From commands to requests (`common/Protocol.cc`)

What the command line client makes of a line that the user types: `buildRequestFromCommand` with its tokenizer.
A line that begins with a brace is sent as it is if it parses; any other line is a command with arguments, and
the request has the time of day in `sent_at_us`.

The commands come in four forms: without argument, with one name, with a name and a message, with a name and
an optional limit.
-/

namespace ChatService

open Byte

/-- `std::toupper` on every byte, in the `"C"` locale. -/
def toUpperCopy (value : Bytes) : Bytes :=
  value.map fun ch => if 0x61 ≤ ch ∧ ch ≤ 0x7a then ch - 0x20 else ch

/-- One of `" \t\r\n"`. -/
def isTrimmed (ch : UInt8) : Bool := ch == space || ch == tab || ch == carriageReturn || ch == newline

def trimCopy (value : Bytes) : Bytes := Words.trim isTrimmed value

def skipSpaces (value : Bytes) (pos : ℕ) : ℕ := advanceWhile isspace value pos

/-- The token, if there is one, and the position behind it. -/
def readToken (value : Bytes) (pos : ℕ) : Option Bytes × ℕ :=
  let pos := skipSpaces value pos
  if value.length ≤ pos then (none, pos)
  else
    let start := pos
    let pos := advanceWhile (!isspace ·) value pos
    (some (substr value start (pos - start)), pos)

def hasExtraText (value : Bytes) (pos : ℕ) : Bool := decide (skipSpaces value pos < value.length)

def restOfLine (value : Bytes) (pos : ℕ) : Bytes :=
  if value.length ≤ pos then [] else trimCopy (value.drop pos)

/-- How `buildRequestFromCommand` ends; `fault` stands for an exception. -/
inductive BuildResult where
  | ok (jsonLine : Bytes)
  | error (error : Bytes)
  | fault
deriving DecidableEq

/-- The object with the time `now` of `currentTimeMicros`. -/
def timedObject (now : ℤ) (object : JsonObject) : JsonObject :=
  object.insert (ascii "sent_at_us") (int64ToString now)

def finishObject (now : ℤ) (object : JsonObject) : BuildResult := .ok (makeJsonLine (timedObject now object))

section

variable (now : ℤ) (trimmed : Bytes) (pos : ℕ)

/-- A command without argument. -/
def plainCommand (type usage : String) : BuildResult :=
  if hasExtraText trimmed pos then .error (ascii usage)
  else finishObject now ((∅ : JsonObject).insert (ascii "type") (ascii type))

/-- A command with one name. -/
def nameCommand (type key usage : String) : BuildResult :=
  match readToken trimmed pos with
  | (none, _) => .error (ascii usage)
  | (some name, pos) =>
    if hasExtraText trimmed pos then .error (ascii usage)
    else finishObject now (((∅ : JsonObject).insert (ascii "type") (ascii type)).insert (ascii key) name)

/-- A command with a name and a message. -/
def messageCommand (type key usage : String) : BuildResult :=
  match readToken trimmed pos with
  | (none, _) => .error (ascii usage)
  | (some name, pos) =>
    let message := restOfLine trimmed pos
    if message = [] then .error (ascii usage)
    else finishObject now ((((∅ : JsonObject).insert (ascii "type") (ascii type)).insert (ascii key) name).insert
      (ascii "message") message)

/-- A command with a name and an optional limit. -/
def limitCommand (type key usage : String) : BuildResult :=
  match readToken trimmed pos with
  | (none, _) => .error (ascii usage)
  | (some name, pos) =>
    let object := ((∅ : JsonObject).insert (ascii "type") (ascii type)).insert (ascii key) name
    let (limit, pos) := readToken trimmed pos
    let object := match limit with
      | some limit => object.insert (ascii "limit") limit
      | none => object
    if hasExtraText trimmed pos then .error (ascii usage) else finishObject now object

/-- The commands, behind the name of the command. -/
def buildCommand (command : Bytes) : BuildResult :=
  if command = ascii "LOGIN" then
    nameCommand now trimmed pos "login" "username" "usage: LOGIN username"
  else if command = ascii "LOGOUT" then plainCommand now trimmed pos "logout" "usage: LOGOUT"
  else if command = ascii "USERS" then plainCommand now trimmed pos "users" "usage: USERS"
  else if command = ascii "PRIVATE" then
    messageCommand now trimmed pos "private" "target" "usage: PRIVATE target_username message"
  else if command = ascii "CREATE_ROOM" then
    nameCommand now trimmed pos "create_room" "room" "usage: CREATE_ROOM room_name"
  else if command = ascii "JOIN" then nameCommand now trimmed pos "join" "room" "usage: JOIN room_name"
  else if command = ascii "LEAVE" then nameCommand now trimmed pos "leave" "room" "usage: LEAVE room_name"
  else if command = ascii "ROOM_MSG" then
    messageCommand now trimmed pos "room_msg" "room" "usage: ROOM_MSG room_name message"
  else if command = ascii "HISTORY_PRIVATE" then
    limitCommand now trimmed pos "history_private" "peer" "usage: HISTORY_PRIVATE peer [limit]"
  else if command = ascii "HISTORY_ROOM" then
    limitCommand now trimmed pos "history_room" "room" "usage: HISTORY_ROOM room [limit]"
  else .error (ascii "unknown command")

end

def buildRequestFromCommand (now : ℤ) (line : Bytes) : BuildResult :=
  let trimmed := trimCopy line
  if trimmed = [] then .error (ascii "empty command")
  else if trimmed.head? = some lbrace then
    match parseJsonObject trimmed with
    | .ok _ _ => .ok (trimmed ++ [newline])
    | .error error _ => .error error
    | .outOfRange => .fault
    | .outOfFuel => .fault
  else
    match readToken trimmed 0 with
    | (none, _) => .error (ascii "empty command")
    | (some command, pos) => buildCommand now trimmed pos (toUpperCopy command)

example : buildRequestFromCommand 5 (ascii " private bob  hello there ") =
    .ok (makeJsonLine ((((∅ : JsonObject).insert (ascii "type") (ascii "private")).insert (ascii "target")
      (ascii "bob")).insert (ascii "message") (ascii "hello there") |>.insert (ascii "sent_at_us")
      (ascii "5"))) := by decide +kernel

/-! ### The tokens are the words -/

section

open Words

variable {value : Bytes} {pos pos' : ℕ} {name : Bytes}

/-- A token is the next word. -/
theorem readToken_eq_some (h : readToken value pos = (some name, pos')) :
    (value.drop pos).dropWhile isspace ≠ [] ∧ name = firstWord isspace (value.drop pos) ∧
      value.drop pos' = afterWord isspace (value.drop pos) := by
  have hdrop : value.drop (skipSpaces value pos) = (value.drop pos).dropWhile isspace :=
    drop_advanceWhile isspace value pos
  rw [readToken] at h
  dsimp only at h
  by_cases hend : value.length ≤ skipSpaces value pos
  · rw [if_pos hend] at h
    exact absurd (Prod.mk.inj h).1 (by simp)
  rw [if_neg hend] at h
  obtain ⟨hname, hpos⟩ := Prod.mk.inj h
  refine ⟨?_, ?_, ?_⟩
  · rw [← hdrop]
    intro hnil
    exact hend (List.drop_eq_nil_iff.mp hnil)
  · rw [← Option.some.inj hname, substr_advanceWhile, hdrop]
    rfl
  · rw [← hpos, drop_advanceWhile, hdrop]
    rfl

theorem words_of_readToken_eq_some (h : readToken value pos = (some name, pos')) :
    words isspace (value.drop pos) = name :: words isspace (value.drop pos') := by
  obtain ⟨hne, rfl, hrest⟩ := readToken_eq_some h
  rw [hrest, words_eq_cons hne]

/-- Without a token there are no more words. -/
theorem words_of_readToken_eq_none (h : readToken value pos = (none, pos')) :
    words isspace (value.drop pos) = [] ∧ words isspace (value.drop pos') = [] := by
  have hdrop : value.drop (skipSpaces value pos) = (value.drop pos).dropWhile isspace :=
    drop_advanceWhile isspace value pos
  rw [readToken] at h
  dsimp only at h
  by_cases hend : value.length ≤ skipSpaces value pos
  swap
  · rw [if_neg hend] at h
    exact absurd (Prod.mk.inj h).1 (by simp)
  rw [if_pos hend] at h
  obtain ⟨-, rfl⟩ := Prod.mk.inj h
  have hnil := List.drop_eq_nil_of_le hend
  rw [hnil] at hdrop ⊢
  exact ⟨words_eq_nil hdrop.symm, words_nil⟩

theorem words_of_not_hasExtraText (h : ¬ hasExtraText value pos = true) :
    words isspace (value.drop pos) = [] := by
  rw [hasExtraText, decide_eq_true_iff, Nat.not_lt] at h
  have hdrop : value.drop (skipSpaces value pos) = (value.drop pos).dropWhile isspace :=
    drop_advanceWhile isspace value pos
  rw [List.drop_eq_nil_of_le h] at hdrop
  exact words_eq_nil hdrop.symm

theorem restOfLine_eq (value : Bytes) (pos : ℕ) : restOfLine value pos = trimCopy (value.drop pos) := by
  rw [restOfLine]
  split_ifs with hend
  · rw [List.drop_eq_nil_of_le hend]
    rfl
  · rfl

theorem isspace_of_isTrimmed (ch : UInt8) (h : isTrimmed ch = true) : isspace ch = true :=
  forall_byte (fun ch => isTrimmed ch = true → isspace ch = true) (by decide +kernel) ch h

/-- Trimming the line changes no word of it. -/
theorem words_trimCopy (line : Bytes) : words isspace (trimCopy line) = words isspace line :=
  words_trim isspace_of_isTrimmed line

end

/-! ### What the commands are made of -/

section

open Words

variable {now : ℤ} {trimmed jsonLine : Bytes} {pos : ℕ} {type key usage : String}

theorem plainCommand_eq_ok (h : plainCommand now trimmed pos type usage = .ok jsonLine) :
    words isspace (trimmed.drop pos) = [] ∧
      jsonLine = makeJsonLine (timedObject now ((∅ : JsonObject).insert (ascii "type") (ascii type))) := by
  rw [plainCommand] at h
  split_ifs at h with hextra
  exact ⟨words_of_not_hasExtraText hextra, (BuildResult.ok.inj h).symm⟩

theorem nameCommand_eq_ok (h : nameCommand now trimmed pos type key usage = .ok jsonLine) :
    ∃ name, words isspace (trimmed.drop pos) = [name] ∧
      jsonLine = makeJsonLine (timedObject now
        (((∅ : JsonObject).insert (ascii "type") (ascii type)).insert (ascii key) name)) := by
  rw [nameCommand] at h
  split at h
  · exact absurd h (by simp)
  · next name pos' htoken =>
    split_ifs at h with hextra
    refine ⟨name, ?_, (BuildResult.ok.inj h).symm⟩
    rw [words_of_readToken_eq_some htoken, words_of_not_hasExtraText hextra]

theorem messageCommand_eq_ok (h : messageCommand now trimmed pos type key usage = .ok jsonLine) :
    ∃ name, (trimmed.drop pos).dropWhile isspace ≠ [] ∧ name = firstWord isspace (trimmed.drop pos) ∧
      jsonLine = makeJsonLine (timedObject now
        ((((∅ : JsonObject).insert (ascii "type") (ascii type)).insert (ascii key) name).insert
          (ascii "message") (trimCopy (afterWord isspace (trimmed.drop pos))))) := by
  rw [messageCommand] at h
  split at h
  · exact absurd h (by simp)
  · next name pos' htoken =>
    obtain ⟨hne, hname, hrest⟩ := readToken_eq_some htoken
    rw [restOfLine_eq, hrest] at h
    dsimp only at h
    split_ifs at h
    exact ⟨name, hne, hname, (BuildResult.ok.inj h).symm⟩

theorem limitCommand_eq_ok (h : limitCommand now trimmed pos type key usage = .ok jsonLine) :
    (∃ name, words isspace (trimmed.drop pos) = [name] ∧
      jsonLine = makeJsonLine (timedObject now
        (((∅ : JsonObject).insert (ascii "type") (ascii type)).insert (ascii key) name))) ∨
    ∃ name limit, words isspace (trimmed.drop pos) = [name, limit] ∧
      jsonLine = makeJsonLine (timedObject now
        ((((∅ : JsonObject).insert (ascii "type") (ascii type)).insert (ascii key) name).insert
          (ascii "limit") limit)) := by
  rw [limitCommand] at h
  split at h
  · exact absurd h (by simp)
  · next name pos' htoken =>
    have hwords := words_of_readToken_eq_some htoken
    cases hlimit : readToken trimmed pos' with
    | mk limit pos'' =>
      rw [hlimit] at h
      cases limit with
      | none =>
        dsimp only at h
        split_ifs at h
        rw [(words_of_readToken_eq_none hlimit).1] at hwords
        exact .inl ⟨name, hwords, (BuildResult.ok.inj h).symm⟩
      | some limit =>
        dsimp only at h
        split_ifs at h with hextra
        rw [words_of_readToken_eq_some hlimit, words_of_not_hasExtraText hextra] at hwords
        exact .inr ⟨name, limit, hwords, (BuildResult.ok.inj h).symm⟩

end

end ChatService
