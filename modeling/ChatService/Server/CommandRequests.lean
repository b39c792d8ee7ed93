import ChatService.Common.Commands
import ChatService.Server.ChatServer

/-!
# Commands arrive as they were typed

A line that `buildRequestFromCommand` accepts becomes one line on the connection, however the stream is cut,
and the server hands on one request: the object that was typed, or the request for the operation that the
command names, with the words of the line as its arguments.
-/

namespace ChatService

open Byte LineFraming Words

/-- The line is this command, in any letter case, with these words behind it. -/
def Typed (line : Bytes) (command : String) (arguments : List Bytes) : Prop :=
  ∃ word, words isspace line = word :: arguments ∧ toUpperCopy word = ascii command

/-- The trimmed rest of the line, behind the command and the name. -/
def messageOf (line : Bytes) : Bytes := trimCopy (afterWord isspace (afterWord isspace line))

/-- The operation that a command line asks for. -/
inductive Asks (session : Conn) (line : Bytes) : Handler Unit → Prop where
  | login {username : Bytes} : Typed line "LOGIN" [username] → Asks session line (login session username)
  | logout : Typed line "LOGOUT" [] → Asks session line (logout session true)
  | users : Typed line "USERS" [] → Asks session line (sendOnlineUsers session)
  | sendPrivate {target : Bytes} {more : List Bytes} : Typed line "PRIVATE" (target :: more) →
      Asks session line (sendPrivate session target (messageOf line))
  | createRoom {room : Bytes} : Typed line "CREATE_ROOM" [room] →
      Asks session line (createRoom session room)
  | joinRoom {room : Bytes} : Typed line "JOIN" [room] → Asks session line (joinRoom session room)
  | leaveRoom {room : Bytes} : Typed line "LEAVE" [room] → Asks session line (leaveRoom session room)
  | sendRoomMessage {room : Bytes} {more : List Bytes} : Typed line "ROOM_MSG" (room :: more) →
      Asks session line (sendRoomMessage session room (messageOf line))
  | privateHistory {peer : Bytes} : Typed line "HISTORY_PRIVATE" [peer] →
      Asks session line (sendPrivateHistory session peer [] [])
  | privateHistoryLimit {peer limit : Bytes} : Typed line "HISTORY_PRIVATE" [peer, limit] →
      Asks session line (sendPrivateHistory session peer limit [])
  | roomHistory {room : Bytes} : Typed line "HISTORY_ROOM" [room] →
      Asks session line (sendRoomHistory session room [] [])
  | roomHistoryLimit {room limit : Bytes} : Typed line "HISTORY_ROOM" [room, limit] →
      Asks session line (sendRoomHistory session room limit [])

/-! ### What the commands ask for -/

section

variable {now : ℤ} {trimmed jsonLine name : Bytes} {pos : ℕ} {type key usage : String} {P : JsonObject → Prop}

theorem fieldOrEmpty_timedObject (object : JsonObject) (h : ascii "sent_at_us" ≠ ascii key) :
    fieldOrEmpty (timedObject now object) key = fieldOrEmpty object key :=
  fieldOrEmpty_insert_of_ne _ _ h

/-- A command asks for nothing before a time. -/
theorem beforeText_of_absent {request : JsonObject} (hbefore : fieldOrEmpty request "before" = [])
    (htimestamp : fieldOrEmpty request "before_timestamp" = [])
    (hcamel : fieldOrEmpty request "beforeTimestamp" = []) : beforeText request = [] := by
  rw [beforeText, hbefore, htimestamp, hcamel]
  simp

theorem request_of_plainCommand (h : plainCommand now trimmed pos type usage = .ok jsonLine)
    (hrequest : ∀ request, fieldOrEmpty request "type" = ascii type →
      words isspace (trimmed.drop pos) = [] → P request) :
    ∃ request, jsonLine = makeJsonLine request ∧ P request := by
  obtain ⟨hnone, hline⟩ := plainCommand_eq_ok h
  refine ⟨_, hline, hrequest _ ?_ hnone⟩
  rw [fieldOrEmpty_timedObject _ (by decide), fieldOrEmpty_insert_self]

theorem request_of_nameCommand (htype : ascii key ≠ ascii "type") (htime : ascii "sent_at_us" ≠ ascii key)
    (h : nameCommand now trimmed pos type key usage = .ok jsonLine)
    (hrequest : ∀ request name, fieldOrEmpty request "type" = ascii type → fieldOrEmpty request key = name →
      words isspace (trimmed.drop pos) = [name] → P request) :
    ∃ request, jsonLine = makeJsonLine request ∧ P request := by
  obtain ⟨name, hname, hline⟩ := nameCommand_eq_ok h
  refine ⟨_, hline, hrequest _ name ?_ ?_ hname⟩
  · rw [fieldOrEmpty_timedObject _ (by decide), fieldOrEmpty_insert_of_ne _ _ htype, fieldOrEmpty_insert_self]
  · rw [fieldOrEmpty_timedObject _ htime, fieldOrEmpty_insert_self]

theorem request_of_messageCommand (htype : ascii key ≠ ascii "type")
    (htime : ascii "sent_at_us" ≠ ascii key) (hkey : ascii "message" ≠ ascii key)
    (h : messageCommand now trimmed pos type key usage = .ok jsonLine)
    (hrequest : ∀ request, fieldOrEmpty request "type" = ascii type →
      fieldOrEmpty request key = firstWord isspace (trimmed.drop pos) →
      fieldOrEmpty request "message" = trimCopy (afterWord isspace (trimmed.drop pos)) →
      (trimmed.drop pos).dropWhile isspace ≠ [] → P request) :
    ∃ request, jsonLine = makeJsonLine request ∧ P request := by
  obtain ⟨name, hne, hname, hline⟩ := messageCommand_eq_ok h
  refine ⟨_, hline, hrequest _ ?_ ?_ ?_ hne⟩
  · rw [fieldOrEmpty_timedObject _ (by decide), fieldOrEmpty_insert_of_ne _ _ (by decide),
      fieldOrEmpty_insert_of_ne _ _ htype, fieldOrEmpty_insert_self]
  · rw [fieldOrEmpty_timedObject _ htime, fieldOrEmpty_insert_of_ne _ _ hkey, fieldOrEmpty_insert_self, hname]
  · rw [fieldOrEmpty_timedObject _ (by decide), fieldOrEmpty_insert_self]

/-- The limit is empty where none is typed, and there is no `before`. -/
theorem request_of_limitCommand (htype : ascii key ≠ ascii "type")
    (htime : ascii "sent_at_us" ≠ ascii key) (hlimit : ascii key ≠ ascii "limit")
    (hlimit' : ascii "limit" ≠ ascii key)
    (hbefore : ∀ other ∈ ["before", "before_timestamp", "beforeTimestamp"], ascii key ≠ ascii other)
    (h : limitCommand now trimmed pos type key usage = .ok jsonLine)
    (hrequest : ∀ request name, fieldOrEmpty request "type" = ascii type → fieldOrEmpty request key = name →
      beforeText request = [] →
      (fieldOrEmpty request "limit" = [] ∧ words isspace (trimmed.drop pos) = [name] ∨
        words isspace (trimmed.drop pos) = [name, fieldOrEmpty request "limit"]) → P request) :
    ∃ request, jsonLine = makeJsonLine request ∧ P request := by
  have hbefore₁ := hbefore "before" (by simp)
  have hbefore₂ := hbefore "before_timestamp" (by simp)
  have hbefore₃ := hbefore "beforeTimestamp" (by simp)
  rcases limitCommand_eq_ok h with ⟨name, hname, hline⟩ | ⟨name, limit, hname, hline⟩
  · have habsent : ∀ other, ascii "sent_at_us" ≠ ascii other → ascii key ≠ ascii other →
        ascii "type" ≠ ascii other → fieldOrEmpty (timedObject now
          (((∅ : JsonObject).insert (ascii "type") (ascii type)).insert (ascii key) name)) other = [] := by
      intro other hsent hkey htype'
      rw [fieldOrEmpty_timedObject _ hsent, fieldOrEmpty_insert_of_ne _ _ hkey,
        fieldOrEmpty_insert_of_ne _ _ htype', fieldOrEmpty_empty]
    refine ⟨_, hline, hrequest _ name ?_ ?_ ?_ (.inl ⟨?_, hname⟩)⟩
    · rw [fieldOrEmpty_timedObject _ (by decide), fieldOrEmpty_insert_of_ne _ _ htype,
        fieldOrEmpty_insert_self]
    · rw [fieldOrEmpty_timedObject _ htime, fieldOrEmpty_insert_self]
    · exact beforeText_of_absent (habsent _ (by decide) hbefore₁ (by decide))
        (habsent _ (by decide) hbefore₂ (by decide)) (habsent _ (by decide) hbefore₃ (by decide))
    · exact habsent _ (by decide) hlimit (by decide)
  · have habsent : ∀ other, ascii "sent_at_us" ≠ ascii other → ascii "limit" ≠ ascii other →
        ascii key ≠ ascii other → ascii "type" ≠ ascii other → fieldOrEmpty (timedObject now
          ((((∅ : JsonObject).insert (ascii "type") (ascii type)).insert (ascii key) name).insert
            (ascii "limit") limit)) other = [] := by
      intro other hsent hother hkey htype'
      rw [fieldOrEmpty_timedObject _ hsent, fieldOrEmpty_insert_of_ne _ _ hother,
        fieldOrEmpty_insert_of_ne _ _ hkey, fieldOrEmpty_insert_of_ne _ _ htype', fieldOrEmpty_empty]
    have hfield : fieldOrEmpty (timedObject now
        ((((∅ : JsonObject).insert (ascii "type") (ascii type)).insert (ascii key) name).insert
          (ascii "limit") limit)) "limit" = limit := by
      rw [fieldOrEmpty_timedObject _ (by decide), fieldOrEmpty_insert_self]
    refine ⟨_, hline, hrequest _ name ?_ ?_ ?_ (.inr ?_)⟩
    · rw [fieldOrEmpty_timedObject _ (by decide), fieldOrEmpty_insert_of_ne _ _ (by decide),
        fieldOrEmpty_insert_of_ne _ _ htype, fieldOrEmpty_insert_self]
    · rw [fieldOrEmpty_timedObject _ htime, fieldOrEmpty_insert_of_ne _ _ hlimit', fieldOrEmpty_insert_self]
    · exact beforeText_of_absent (habsent _ (by decide) (by decide) hbefore₁ (by decide))
        (habsent _ (by decide) (by decide) hbefore₂ (by decide))
        (habsent _ (by decide) (by decide) hbefore₃ (by decide))
    · rw [hfield, hname]

end

section

variable {session : Conn} {now : ℤ} {line trimmed word jsonLine : Bytes} {pos : ℕ}

theorem typed_of_words {command : String} {arguments : List Bytes}
    (hwords : words isspace line = word :: words isspace (trimmed.drop pos))
    (hword : toUpperCopy word = ascii command) (harguments : words isspace (trimmed.drop pos) = arguments) :
    Typed line command arguments :=
  ⟨word, by rw [hwords, harguments], hword⟩

/-- Every command that is accepted asks for its operation. -/
theorem asks_of_buildCommand (hwords : words isspace line = word :: words isspace (trimmed.drop pos))
    (hmessage : (trimmed.drop pos).dropWhile isspace ≠ [] →
      trimCopy (afterWord isspace (trimmed.drop pos)) = messageOf line)
    (h : buildCommand now trimmed pos (toUpperCopy word) = .ok jsonLine) :
    ∃ request, jsonLine = makeJsonLine request ∧ Asks session line (handleRequest session request) := by
  rw [buildCommand] at h
  split at h
  · next hword =>
    apply request_of_nameCommand (by decide) (by decide) h
    intro request name htype hfield hname
    rw [handleRequest_login htype, hfield]
    exact .login (typed_of_words hwords hword hname)
  split at h
  · next hword =>
    apply request_of_plainCommand h
    intro request htype hnone
    rw [handleRequest_logout htype]
    exact .logout (typed_of_words hwords hword hnone)
  split at h
  · next hword =>
    apply request_of_plainCommand h
    intro request htype hnone
    rw [handleRequest_users htype]
    exact .users (typed_of_words hwords hword hnone)
  split at h
  · next hword =>
    apply request_of_messageCommand (by decide) (by decide) (by decide) h
    intro request htype htarget hrest hne
    rw [handleRequest_private htype, htarget, hrest, hmessage hne]
    exact .sendPrivate (typed_of_words hwords hword (words_eq_cons hne))
  split at h
  · next hword =>
    apply request_of_nameCommand (by decide) (by decide) h
    intro request name htype hfield hname
    rw [handleRequest_createRoom htype, hfield]
    exact .createRoom (typed_of_words hwords hword hname)
  split at h
  · next hword =>
    apply request_of_nameCommand (by decide) (by decide) h
    intro request name htype hfield hname
    rw [handleRequest_join htype, hfield]
    exact .joinRoom (typed_of_words hwords hword hname)
  split at h
  · next hword =>
    apply request_of_nameCommand (by decide) (by decide) h
    intro request name htype hfield hname
    rw [handleRequest_leave htype, hfield]
    exact .leaveRoom (typed_of_words hwords hword hname)
  split at h
  · next hword =>
    apply request_of_messageCommand (by decide) (by decide) (by decide) h
    intro request htype hroom hrest hne
    rw [handleRequest_roomMsg htype, hroom, hrest, hmessage hne]
    exact .sendRoomMessage (typed_of_words hwords hword (words_eq_cons hne))
  split at h
  · next hword =>
    apply request_of_limitCommand (by decide) (by decide) (by decide) (by decide) (by decide) h
    intro request name htype hfield hbefore hlimit
    rw [handleRequest_historyPrivate htype, hfield, hbefore]
    rcases hlimit with ⟨hlimit, hname⟩ | hname
    · rw [hlimit]
      exact .privateHistory (typed_of_words hwords hword hname)
    · exact .privateHistoryLimit (typed_of_words hwords hword hname)
  split at h
  · next hword =>
    apply request_of_limitCommand (by decide) (by decide) (by decide) (by decide) (by decide) h
    intro request name htype hfield hbefore hlimit
    rw [handleRequest_historyRoom htype, hfield, hbefore]
    rcases hlimit with ⟨hlimit, hname⟩ | hname
    · rw [hlimit]
      exact .roomHistory (typed_of_words hwords hword hname)
    · exact .roomHistoryLimit (typed_of_words hwords hword hname)
  · exact absurd h (by simp)

end

/-! ### The line on the connection -/

section

variable {now : ℤ} {line jsonLine : Bytes}

/-- A raw object is sent without the space around it. -/
theorem buildRequestFromCommand_of_raw (hraw : (trimCopy line).head? = some lbrace)
    (h : buildRequestFromCommand now line = .ok jsonLine) :
    jsonLine = trimCopy line ++ [newline] ∧ ∃ request pos, parseJsonObject (trimCopy line) = .ok request pos := by
  have hne : trimCopy line ≠ [] := by
    intro hnil
    rw [hnil] at hraw
    exact absurd hraw (by simp)
  rw [buildRequestFromCommand] at h
  rw [if_neg hne, if_pos hraw] at h
  cases hparse : parseJsonObject (trimCopy line) with
  | ok request pos =>
    rw [hparse] at h
    exact ⟨(BuildResult.ok.inj h).symm, request, pos, rfl⟩
  | error error pos =>
    rw [hparse] at h
    exact absurd h (by simp)
  | outOfRange =>
    rw [hparse] at h
    exact absurd h (by simp)
  | outOfFuel =>
    rw [hparse] at h
    exact absurd h (by simp)

/-- Any other line is sent as the request for its operation. -/
theorem buildRequestFromCommand_of_command (session : Conn) (hraw : (trimCopy line).head? ≠ some lbrace)
    (h : buildRequestFromCommand now line = .ok jsonLine) :
    ∃ request, jsonLine = makeJsonLine request ∧ Asks session line (handleRequest session request) := by
  rw [buildRequestFromCommand] at h
  split_ifs at h with hne
  split at h
  · exact absurd h (by simp)
  · next word pos htoken =>
    obtain ⟨hblank, -, hrest⟩ := readToken_eq_some htoken
    have hwords := words_of_readToken_eq_some htoken
    rw [List.drop_zero] at hblank hrest hwords
    rw [words_trimCopy] at hwords
    refine asks_of_buildCommand hwords (fun hne => ?_) h
    rw [hrest] at hne ⊢
    exact trim_afterWord_trim isspace_of_isTrimmed hblank hne

/-- The trimmed line is dispatched as the object it parses to. -/
theorem onLine_trimCopy {request : JsonObject} {pos : ℕ} (hraw : (trimCopy line).head? = some lbrace)
    (h : parseJsonObject (trimCopy line) = .ok request pos) :
    onLine (trimCopy line) = [.dispatch (trimCopy line) request] := by
  have hstrip : stripCarriageReturn (trimCopy line) = trimCopy line := by
    rw [stripCarriageReturn]
    refine if_neg fun hlast => ?_
    exact absurd (getLast?_trim hlast) (by decide)
  have hne : trimCopy line ≠ [] := by
    intro hnil
    rw [hnil] at hraw
    exact absurd hraw (by simp)
  rw [onLine, hstrip]
  show ite _ _ _ = _
  rw [if_neg hne, h]

/-- **Commands arrive as they were typed.**  The line that is sent holds one newline, at its end; cut into
reads in any way, it is dispatched once and nothing is answered in its place: a raw object as the object that
was parsed before it was sent, a command as the request for the operation it names. -/
theorem commands_are_dispatched (session : Conn) (hnewline : newline ∉ line)
    (hbuild : buildRequestFromCommand now line = .ok jsonLine)
    (hlength : jsonLine.length ≤ kMaxRequestLineBytes) :
    ∃ text request, jsonLine = text ++ [newline] ∧ newline ∉ text ∧
      (∀ reads : List Bytes, reads.flatten = jsonLine →
        serve reads = (⟨[], false⟩, [.dispatch text request])) ∧
      if (trimCopy line).head? = some lbrace then
        text = trimCopy line ∧ ∃ pos, parseJsonObject (trimCopy line) = .ok request pos
      else Asks session line (handleRequest session request) := by
  by_cases hraw : (trimCopy line).head? = some lbrace
  · obtain ⟨rfl, request, pos, hparse⟩ := buildRequestFromCommand_of_raw hraw hbuild
    have htext : newline ∉ trimCopy line := fun hmem => hnewline (mem_of_mem_trim hmem)
    refine ⟨trimCopy line, request, rfl, htext, ?_, ?_⟩
    · intro reads hreads
      have hshort : (trimCopy line).length ≤ kMaxRequestLineBytes := by
        rw [List.length_append] at hlength
        omega
      rw [serve_line htext hshort hreads, onLine_trimCopy hraw hparse]
    · rw [if_pos hraw]
      exact ⟨rfl, pos, hparse⟩
  · obtain ⟨request, rfl, hasks⟩ := buildRequestFromCommand_of_command session hraw hbuild
    have htext := newline_not_mem_serializeJsonObject request
    refine ⟨serializeJsonObject request, request, rfl, htext, ?_, ?_⟩
    · intro reads hreads
      have hshort : (serializeJsonObject request).length ≤ kMaxRequestLineBytes := by
        rw [makeJsonLine, List.length_append] at hlength
        omega
      rw [serve_line htext hshort hreads, onLine_serializeJsonObject]
    · rw [if_neg hraw]
      exact hasks

/-- Bob is sent a message with two spaces in it. -/
theorem private_command_is_dispatched :
    ∃ text request, makeJsonLine (timedObject 5 ((((∅ : JsonObject).insert (ascii "type")
        (ascii "private")).insert (ascii "target") (ascii "bob")).insert (ascii "message")
          (ascii "hello  there"))) = text ++ [newline] ∧ newline ∉ text ∧
      (∀ reads : List Bytes, reads.flatten = makeJsonLine (timedObject 5 ((((∅ : JsonObject).insert
        (ascii "type") (ascii "private")).insert (ascii "target") (ascii "bob")).insert (ascii "message")
          (ascii "hello  there"))) → serve reads = (⟨[], false⟩, [.dispatch text request])) ∧
      if (trimCopy (ascii " private bob hello  there ")).head? = some lbrace then
        text = trimCopy (ascii " private bob hello  there ") ∧
          ∃ pos, parseJsonObject (trimCopy (ascii " private bob hello  there ")) = .ok request pos
      else Asks 1 (ascii " private bob hello  there ") (handleRequest 1 request) :=
  commands_are_dispatched 1 (by decide +kernel)
    (by decide +kernel : buildRequestFromCommand 5 (ascii " private bob hello  there ") = .ok _)
    (by decide +kernel)

end

end ChatService
