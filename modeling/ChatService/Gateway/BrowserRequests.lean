import ChatService.Gateway.JsonLengths
import ChatService.Server.OnMessage

/-!
# From the browser to the server (`ws-gateway/server.js`)

What `attachBridge` does with the messages of the browser, up to the line that it writes, and what the server does
with this line.  Every setting has its default.

* `exists_message_of_forwarded` — a line that is written or waits comes from one message.
* `serverAccepts_iff` — which of these lines the server accepts.
-/

namespace ChatService

namespace Gateway

open Byte LineFraming

/-! ### `parseBrowserRequest` -/

/-- What `parseBrowserRequest` returns. -/
inductive BrowserRequest where
  | error (message : JsString)
  | line (line : JsString)
deriving DecidableEq

/-- White space in a string of code units. -/
def isJsSpaceUnit (unit : UInt16) : Bool := isJsSpace (Char.ofNat unit.toNat)

/-- `data` is the text of a message; the text of a `SyntaxError` is up to the engine. -/
def parseBrowserRequest (syntaxError : JsString → JsString) (data : JsString) (isBinary : Bool) : BrowserRequest :=
  if isBinary then .error "binary WebSocket messages are not supported".toList
  else
    let text := Words.trim isJsSpace data
    if text = [] then .error "empty WebSocket message".toList
    else
      match JSON.parse text with
      | none => .error ("invalid JSON: ".toList ++ syntaxError text)
      | some (.object properties) =>
        match properties.lookup (Utf16.encode "type".toList) with
        | some (.string type) =>
          if Words.trim isJsSpaceUnit type = [] then .error "JSON object must include a string type field".toList
          else .line (JSON.stringify (.object properties) ++ ['\n'])
        | _ => .error "JSON object must include a string type field".toList
      | some _ => .error "WebSocket message must be a JSON object".toList

/-! ### The way to the server -/

/-- `config.websocket.maxPayloadBytes`; `ws` hands out no longer message. -/
def maxPayloadBytes : ℕ := 64 * 1024

/-- `config.gateway.maxQueuedMessages`. -/
def maxQueuedMessages : ℕ := 100

/-- The variables of `attachBridge` that the way to the server uses, and what it has done. -/
structure Uplink where
  tcpReady : Bool
  queuedLines : List JsString
  /-- the lines of `tcp.write`, latest last -/
  written : List JsString
  /-- the messages of `sendGatewayError`, latest last -/
  errors : List JsString
deriving DecidableEq

namespace Uplink

/-- A bridge whose connection to the server is not made yet. -/
def initial : Uplink := ⟨false, [], [], []⟩

def sendGatewayError (uplink : Uplink) (message : JsString) : Uplink :=
  { uplink with errors := uplink.errors ++ [message] }

def writeToTcp (uplink : Uplink) (line : JsString) : Uplink :=
  if byteLength line > maxLineBytes then uplink.sendGatewayError "request line is too large".toList
  else if !uplink.tcpReady then
    if uplink.queuedLines.length ≥ maxQueuedMessages then
      uplink.sendGatewayError "gateway TCP connection is not ready".toList
    else { uplink with queuedLines := uplink.queuedLines ++ [line] }
  else { uplink with written := uplink.written ++ [line] }

/-- The loop ends with the queue: `tcpReady` does not change in it. -/
def flushQueuedLines (uplink : Uplink) : Uplink :=
  if uplink.tcpReady then { uplink with written := uplink.written ++ uplink.queuedLines, queuedLines := [] }
  else uplink

def onMessage (syntaxError : JsString → JsString) (uplink : Uplink) (data : JsString) (isBinary : Bool) : Uplink :=
  match parseBrowserRequest syntaxError data isBinary with
  | .error message => uplink.sendGatewayError message
  | .line line => uplink.writeToTcp line

/-- The lines that `writeToTcp` has not refused. -/
def forwarded (uplink : Uplink) : List JsString := uplink.written ++ uplink.queuedLines

end Uplink

/-- The events of the two sockets that the way to the server depends on. -/
inductive UplinkEvent where
  | message (data : JsString) (isBinary : Bool)
  | connect
  | close
deriving DecidableEq

namespace Uplink

def step (syntaxError : JsString → JsString) (uplink : Uplink) : UplinkEvent → Uplink
  | .message data isBinary =>
    if byteLength data ≤ maxPayloadBytes then uplink.onMessage syntaxError data isBinary else uplink
  | .connect => flushQueuedLines { uplink with tcpReady := true }
  | .close => { uplink with tcpReady := false }

def run (syntaxError : JsString → JsString) (events : List UplinkEvent) : Uplink :=
  events.foldl (step syntaxError) initial

variable {syntaxError : JsString → JsString} {uplink : Uplink} {line : JsString}

theorem forwarded_writeToTcp {line' : JsString} (h : line ∈ (uplink.writeToTcp line').forwarded) :
    line ∈ uplink.forwarded ∨ line = line' := by
  rw [writeToTcp] at h
  split_ifs at h
  · exact .inl h
  · exact .inl h
  · simp only [forwarded, List.mem_append, List.mem_singleton] at h ⊢
    tauto
  · simp only [forwarded, List.mem_append, List.mem_singleton] at h ⊢
    tauto

theorem forwarded_step {event : UplinkEvent} (h : line ∈ (step syntaxError uplink event).forwarded) :
    line ∈ uplink.forwarded ∨ ∃ data isBinary, event = .message data isBinary ∧
      parseBrowserRequest syntaxError data isBinary = .line line := by
  cases event with
  | message data isBinary =>
    rw [step] at h
    split_ifs at h
    · rw [onMessage] at h
      split at h
      · exact .inl h
      · next line' hline =>
        rcases forwarded_writeToTcp h with hold | rfl
        · exact .inl hold
        · exact .inr ⟨data, isBinary, rfl, hline⟩
    · exact .inl h
  | connect =>
    have hsame : (step syntaxError uplink .connect).forwarded = uplink.forwarded := by
      show (uplink.written ++ uplink.queuedLines) ++ [] = uplink.written ++ uplink.queuedLines
      rw [List.append_nil]
    rw [hsame] at h
    exact .inl h
  | close => exact .inl h

/-- **A line that is written or waits** comes from a message of the run. -/
theorem exists_message_of_forwarded {events : List UplinkEvent} (h : line ∈ (run syntaxError events).forwarded) :
    ∃ data isBinary, .message data isBinary ∈ events ∧
      parseBrowserRequest syntaxError data isBinary = .line line := by
  have hall : ∀ (events : List UplinkEvent) (uplink : Uplink),
      line ∈ (events.foldl (step syntaxError) uplink).forwarded → line ∈ uplink.forwarded ∨
        ∃ data isBinary, .message data isBinary ∈ events ∧
          parseBrowserRequest syntaxError data isBinary = .line line := by
    intro events
    induction events with
    | nil => exact fun _ hline => .inl hline
    | cons event events ih =>
      intro uplink hline
      rcases ih _ hline with hfirst | ⟨data, isBinary, hmem, hdata⟩
      · rcases forwarded_step hfirst with hold | ⟨data, isBinary, rfl, hdata⟩
        · exact .inl hold
        · exact .inr ⟨data, isBinary, List.mem_cons_self, hdata⟩
      · exact .inr ⟨data, isBinary, List.mem_cons_of_mem _ hmem, hdata⟩
  exact (hall events initial h).resolve_left List.not_mem_nil

end Uplink

/-! ### What the server does with a line -/

/-- `ChatServer::onMessage` accepts the line of an object: it is one line within the limit, `parseJsonObject` reads it
with every string of the object in UTF-8, and it is dispatched, however the bytes arrive. -/
def ServerAccepts (line : JsString) (properties : List (List UInt16 × JSON.Value)) : Prop :=
  ∃ body request, Utf8.encode line = body ++ [newline] ∧ newline ∉ body ∧ body.length ≤ kMaxRequestLineBytes ∧
    (∃ pos, parseJsonObject body = .ok request pos) ∧
    (∀ key units, (key, JSON.Value.string units) ∈ properties → ∃ name text : Bytes,
      JSON.utf8 key = some name ∧ JSON.utf8 units = some text ∧ request[name]? = some text) ∧
    ∀ reads, reads.flatten = Utf8.encode line → serve reads = (⟨[], false⟩, [.dispatch body request])

/-- A message with a line is an object, and the line is its text. -/
theorem object_of_parseBrowserRequest {syntaxError : JsString → JsString} {data line : JsString} {isBinary : Bool}
    (h : parseBrowserRequest syntaxError data isBinary = .line line) :
    isBinary = false ∧ ∃ properties, JSON.parse (Words.trim isJsSpace data) = some (.object properties) ∧
      line = JSON.stringify (.object properties) ++ ['\n'] := by
  rw [parseBrowserRequest] at h
  by_cases hbinary : isBinary = true
  · rw [if_pos hbinary] at h
    exact absurd h nofun
  · rw [if_neg hbinary] at h
    refine ⟨Bool.not_eq_true _ ▸ hbinary, ?_⟩
    by_cases hempty : Words.trim isJsSpace data = []
    · simp only [if_pos hempty] at h
      exact absurd h nofun
    · simp only [if_neg hempty] at h
      split at h
      · exact absurd h nofun
      · next properties hparse =>
        split at h
        · split_ifs at h
          exact ⟨properties, hparse, (BrowserRequest.line.inj h).symm⟩
        · exact absurd h nofun
      · exact absurd h nofun

/-- A line that holds an object is dispatched. -/
theorem serve_dispatched {body : Bytes} {request : JsonObject} {pos : ℕ} (hnewline : newline ∉ body)
    (hlength : body.length ≤ kMaxRequestLineBytes) (hreturn : body.getLast? ≠ some carriageReturn) (hne : body ≠ [])
    (hparse : parseJsonObject body = .ok request pos) {reads : List Bytes}
    (hreads : reads.flatten = body ++ [newline]) :
    serve reads = (⟨[], false⟩, [.dispatch body request]) := by
  have hreact : onLine body = [.dispatch body request] := by
    rw [onLine, stripCarriageReturn, if_neg hreturn]
    show ite _ _ _ = _
    rw [if_neg hne, hparse]
  rw [serve_line hnewline hlength hreads, hreact]

/-- **Which objects the server accepts**: those without lone surrogates whose text is within its limit. -/
theorem serverAccepts_iff {properties : List (List UInt16 × JSON.Value)} (hnodup : (properties.map Prod.fst).Nodup) :
    ServerAccepts (JSON.stringify (.object properties) ++ ['\n']) properties ↔
      (JSON.Value.object properties).wellFormed = true ∧
        (JSON.Value.object properties).size ≤ kMaxRequestLineBytes := by
  have hline : Utf8.encode (JSON.stringify (.object properties) ++ ['\n']) =
      Utf8.encode (JSON.stringify (.object properties)) ++ [newline] := Utf8.encode_append _ _
  have hlength : (Utf8.encode (JSON.stringify (.object properties))).length = (JSON.Value.object properties).size :=
    JSON.length_stringify _
  constructor
  · rintro ⟨body, request, hbody, -, hshort, ⟨pos, hparse⟩, -, -⟩
    obtain ⟨rfl, -⟩ := List.append_inj' (hline.symm.trans hbody) rfl
    refine ⟨?_, hlength ▸ hshort⟩
    rw [← (JSON.asciiEscapes_stringify _).2]
    exact JsonGrammar.asciiEscapes_of_parse hparse
  · rintro ⟨hwell, hshort⟩
    obtain ⟨request, pos, hparse, hstrings⟩ := JSON.parse_stringify hnodup hwell
    have hvisible := JSON.stringify_visible (.object properties)
    have hnewline : newline ∉ Utf8.encode (JSON.stringify (.object properties)) :=
      fun hmem => absurd (hvisible _ hmem) (by decide)
    have hreturn : (Utf8.encode (JSON.stringify (.object properties))).getLast? ≠ some carriageReturn :=
      fun hlast => absurd (hvisible _ (List.mem_of_getLast? hlast)) (by decide)
    have hne : Utf8.encode (JSON.stringify (.object properties)) ≠ [] := by
      intro hnil
      rw [hnil] at hparse
      exact absurd hparse nofun
    rw [← hlength] at hshort
    exact ⟨_, request, hline, hnewline, hshort, ⟨pos, hparse⟩, hstrings, fun reads hreads =>
      serve_dispatched hnewline hshort hreturn hne hparse (hreads.trans hline)⟩

/-- **What becomes of a forwarded line.**  In every run it comes from a message of the browser.  It is one line; and
the server accepts it, with every string of the object as it was sent, if and only if no string of the object has a
surrogate that stands alone and its text is within the limit of the server. -/
theorem forwarded_line_accepted (syntaxError : JsString → JsString) {events : List UplinkEvent} {line : JsString}
    (h : line ∈ (Uplink.run syntaxError events).forwarded) :
    (∃ data, .message data false ∈ events ∧ parseBrowserRequest syntaxError data false = .line line) ∧
      ∀ data, parseBrowserRequest syntaxError data false = .line line →
        ∃ properties, JSON.parse (Words.trim isJsSpace data) = some (.object properties) ∧
          (∃ body, Utf8.encode line = body ++ [newline] ∧ newline ∉ body) ∧
          (ServerAccepts line properties ↔
            (JSON.Value.object properties).wellFormed = true ∧
              (JSON.Value.object properties).size ≤ kMaxRequestLineBytes) := by
  constructor
  · obtain ⟨data, isBinary, hmem, hdata⟩ := Uplink.exists_message_of_forwarded h
    obtain ⟨rfl, -⟩ := object_of_parseBrowserRequest hdata
    exact ⟨data, hmem, hdata⟩
  · intro data hdata
    obtain ⟨-, properties, hparse, rfl⟩ := object_of_parseBrowserRequest hdata
    refine ⟨properties, hparse, ⟨_, Utf8.encode_append _ _, ?_⟩, serverAccepts_iff (JSON.keys_nodup_of_parse hparse)⟩
    exact fun hmem => absurd (JSON.stringify_visible _ _ hmem) (by decide)

/-- The message of a login. -/
def loginMessage (username : String) : JsString :=
  ("\x7b\"type\":\"login\",\"username\":\"" ++ username ++ "\"\x7d").toList

/-- A login with a name in ASCII. -/
theorem forwarded_line_accepted_login :
    ∃ properties, JSON.parse (Words.trim isJsSpace (loginMessage "a")) = some (.object properties) ∧
      ServerAccepts (loginMessage "a" ++ ['\n']) properties := by
  have hforwarded : loginMessage "a" ++ ['\n'] ∈
      (Uplink.run id [.message (loginMessage "a") false, .connect]).forwarded := by decide +kernel
  obtain ⟨-, hall⟩ := forwarded_line_accepted id hforwarded
  obtain ⟨properties, hparse, -, haccepts⟩ := hall (loginMessage "a") (by decide +kernel)
  have hcheck : (JSON.parse (Words.trim isJsSpace (loginMessage "a"))).any
      (fun value => value.wellFormed && decide (value.size ≤ kMaxRequestLineBytes)) = true := by decide +kernel
  rw [hparse, Option.any_some, Bool.and_eq_true, decide_eq_true_eq] at hcheck
  exact ⟨properties, hparse, haccepts.mpr hcheck⟩

/-! ### Lines that the server refuses -/

theorem Uplink.forwarded_message {syntaxError : JsString → JsString} {data line : JsString}
    (hdata : byteLength data ≤ maxPayloadBytes) (hparse : parseBrowserRequest syntaxError data false = .line line)
    (hline : byteLength line ≤ maxLineBytes) : (run syntaxError [.message data false]).forwarded = [line] := by
  have hrun : run syntaxError [.message data false] = initial.writeToTcp line := by
    show (if byteLength data ≤ maxPayloadBytes then onMessage syntaxError initial data false else initial) = _
    rw [if_pos hdata, onMessage, hparse]
  rw [hrun, writeToTcp, if_neg (Nat.not_lt.mpr hline)]
  rfl

/-- A number that is written in 21 bytes, and `n` letters. -/
def longMessage (n : ℕ) : JsString :=
  "\x7b\"a\":1e20,\"type\":\"".toList ++ (List.replicate n 'x' ++ "\"\x7d".toList)

def longProperties (n : ℕ) : List (List UInt16 × JSON.Value) :=
  [(Utf16.encode ['a'], .number (some (10 ^ 20))), (Utf16.encode "type".toList, .string (List.replicate n 0x78))]

theorem longMessage_eq (n : ℕ) : longMessage n =
    ['\x7b', '"', 'a', '"', ':', '1', 'e', '2', '0', ',', '"', 't', 'y', 'p', 'e', '"', ':', '"'] ++
      (List.replicate n 'x' ++ ['"', '\x7d']) := by
  have hhead : "\x7b\"a\":1e20,\"type\":\"".toList =
      ['\x7b', '"', 'a', '"', ':', '1', 'e', '2', '0', ',', '"', 't', 'y', 'p', 'e', '"', ':', '"'] := by decide
  have htail : "\"\x7d".toList = ['"', '\x7d'] := by decide
  exact congrArg₂ (· ++ ·) hhead (congrArg (List.replicate n 'x' ++ ·) htail)

section Reading

open JSON

theorem number_1e20 (rest : JsString) :
    number ('1' :: 'e' :: '2' :: '0' :: ',' :: rest) = .done (some (10 ^ 20)) (',' :: rest) := by
  have hread : number ('1' :: 'e' :: '2' :: '0' :: ',' :: rest) =
      .done (Binary64.round ((Nat.ofDigitChars 10 ['1'] 0 : ℕ) *
        10 ^ ((Nat.ofDigitChars 10 ['2', '0'] 0 : ℕ) - ([] : JsString).length : ℤ))) (',' :: rest) := rfl
  have hround : Binary64.round ((Nat.ofDigitChars 10 ['1'] 0 : ℕ) *
      10 ^ ((Nat.ofDigitChars 10 ['2', '0'] 0 : ℕ) - ([] : JsString).length : ℤ)) = some (10 ^ 20) := by decide +kernel
  rw [hread, hround]

theorem stringTail_letters (n : ℕ) (rest : JsString) :
    stringTail (List.replicate n 'x' ++ '"' :: rest) = .done (List.replicate n 0x78) rest := by
  have hx : Utf16.units 'x' = [0x78] := by decide
  induction n with
  | zero => rfl
  | succ n ih =>
    have hstep : stringTail ('x' :: (List.replicate n 'x' ++ '"' :: rest)) =
        (stringTail (List.replicate n 'x' ++ '"' :: rest)).map (Utf16.units 'x' ++ ·) := rfl
    rw [List.replicate_succ, List.cons_append, hstep, ih, hx]
    rfl

theorem skipWhiteSpace_visible {c : Char} (h : isWhiteSpace c = false) (rest : JsString) :
    skipWhiteSpace (c :: rest) = c :: rest := by
  rw [skipWhiteSpace, List.dropWhile_cons, if_neg (by rw [h]; nofun)]

/-- The second member. -/
theorem members_type (fuel : ℕ) {n : ℕ} {tail : JsString}
    (h : stringTail tail = .done (List.replicate n 0x78) ['\x7d']) :
    members (fuel + 2) ('"' :: 't' :: 'y' :: 'p' :: 'e' :: '"' :: ':' :: '"' :: tail)
      [(Utf16.encode ['a'], .number (some (10 ^ 20)))] = .done (longProperties n) [] := by
  have hkey : stringTail ('t' :: 'y' :: 'p' :: 'e' :: '"' :: ':' :: '"' :: tail) =
      .done (Utf16.encode "type".toList) (':' :: '"' :: tail) := rfl
  have hvalue : value (fuel + 1) ('"' :: tail) = (stringTail tail).map .string := rfl
  rw [members]
  simp only [skipWhiteSpace_visible (c := '"') (by decide), hkey, Read.bind,
    skipWhiteSpace_visible (c := ':') (by decide), hvalue, h, Read.map,
    skipWhiteSpace_visible (c := '\x7d') (by decide)]
  rfl

/-- The first member, and the second. -/
theorem members_longMessage {fuel n : ℕ} {rest : JsString}
    (h : members (fuel + 2) rest [(Utf16.encode ['a'], .number (some (10 ^ 20)))] = .done (longProperties n) []) :
    members (fuel + 3) ('"' :: 'a' :: '"' :: ':' :: '1' :: 'e' :: '2' :: '0' :: ',' :: rest) [] =
      .done (longProperties n) [] := by
  have hkey : stringTail ('a' :: '"' :: ':' :: '1' :: 'e' :: '2' :: '0' :: ',' :: rest) =
      .done (Utf16.encode ['a']) (':' :: '1' :: 'e' :: '2' :: '0' :: ',' :: rest) := rfl
  have hvalue : value (fuel + 2) ('1' :: 'e' :: '2' :: '0' :: ',' :: rest) =
      (number ('1' :: 'e' :: '2' :: '0' :: ',' :: rest)).map .number := rfl
  rw [members]
  simp only [skipWhiteSpace_visible (c := '"') (by decide), hkey, Read.bind,
    skipWhiteSpace_visible (c := ':') (by decide), hvalue, number_1e20, Read.map,
    skipWhiteSpace_visible (c := ',') (by decide)]
  exact h

theorem parse_longMessage (n : ℕ) : parse (longMessage n) = some (.object (longProperties n)) := by
  have hlength : 2 * (longMessage n).length + 1 = 2 * n + 37 + 4 := by
    rw [longMessage_eq, List.length_append, List.length_append, List.length_replicate]
    simp only [List.length_cons, List.length_nil]
    omega
  have hvalue : value (2 * n + 37 + 4) (longMessage n) = .done (.object (longProperties n)) [] := by
    have hletters := stringTail_letters n ['\x7d']
    rw [longMessage_eq]
    generalize List.replicate n 'x' ++ ['"', '\x7d'] = tail at hletters ⊢
    have hmembers := members_longMessage (members_type (2 * n + 37) hletters)
    generalize hrest : '"' :: 't' :: 'y' :: 'p' :: 'e' :: '"' :: ':' :: '"' :: tail = rest at hmembers
    have hobject : value (2 * n + 37 + 4)
        ('\x7b' :: '"' :: 'a' :: '"' :: ':' :: '1' :: 'e' :: '2' :: '0' :: ',' :: rest) =
          (members (2 * n + 37 + 3) ('"' :: 'a' :: '"' :: ':' :: '1' :: 'e' :: '2' :: '0' :: ',' :: rest) []).map
            .object := rfl
    show value (2 * n + 37 + 4) ('\x7b' :: '"' :: 'a' :: '"' :: ':' :: '1' :: 'e' :: '2' :: '0' :: ',' ::
      '"' :: 't' :: 'y' :: 'p' :: 'e' :: '"' :: ':' :: '"' :: tail) = _
    rw [hrest, hobject, hmembers]
    rfl
  rw [parse, hlength, hvalue]
  rfl

/-- The text is longer than the message, by the digits of the number. -/
theorem size_longProperties (n : ℕ) : (Value.object (longProperties n)).size = n + 37 := by
  have hletters : ((Utf16.codePoints (List.replicate n 0x78)).map pointSize).sum = n := by
    have hsingle : Utf16.single 0x78 = .char 'x' := by decide
    have hx : pointSize (.char 'x') = 1 := by decide
    have hlead : (Utf16.isLead 0x78 && Utf16.isTrail 0x78) = false := by decide
    induction n with
    | zero => rfl
    | succ n ih =>
      cases n with
      | zero => decide
      | succ n =>
        rw [List.replicate_succ, List.replicate_succ, Utf16.codePoints, hlead, ← List.replicate_succ,
          if_neg Bool.false_ne_true, List.map_cons, List.sum_cons, ih, hsingle, hx]
        omega
  have ha : stringSize (Utf16.encode ['a']) = 3 := by decide
  have htype : stringSize (Utf16.encode "type".toList) = 6 := by decide
  have hnumber : byteLength (numberText (10 ^ 20)) = 21 := by decide +kernel
  rw [Value.size, longProperties, sizeProperties, sizeProperties, sizeProperties, ha, htype, Value.size, hnumber,
    Value.size, stringSize, hletters]
  simp only [List.length_cons, List.length_nil]
  omega

end Reading

theorem byteLength_longMessage (n : ℕ) : byteLength (longMessage n) = n + 20 := by
  have hletters : byteLength (List.replicate n 'x') = n := by
    induction n with
    | zero => rfl
    | succ n ih =>
      have hx : byteLength ['x'] = 1 := by decide
      have hsplit : List.replicate (n + 1) 'x' = ['x'] ++ List.replicate n 'x' := rfl
      rw [hsplit, Bridge.byteLength_append, ih, hx, Nat.add_comm]
  have hhead : byteLength
      ['\x7b', '"', 'a', '"', ':', '1', 'e', '2', '0', ',', '"', 't', 'y', 'p', 'e', '"', ':', '"'] = 18 := by decide
  have htail : byteLength ['"', '\x7d'] = 2 := by decide
  rw [longMessage_eq, Bridge.byteLength_append, Bridge.byteLength_append, hletters, hhead, htail]
  omega

theorem trim_longMessage (n : ℕ) : Words.trim isJsSpace (longMessage n) = longMessage n := by
  have hhead : ∀ c ∈ ['\x7b', '"', 'a', '"', ':', '1', 'e', '2', '0', ',', '"', 't', 'y', 'p', 'e', '"', ':', '"'],
      isJsSpace c = false := by
    simp only [List.mem_cons, List.not_mem_nil, or_false, forall_eq_or_imp, forall_eq]
    decide
  have htail : ∀ c ∈ ['"', '\x7d'], isJsSpace c = false := by
    simp only [List.mem_cons, List.not_mem_nil, or_false, forall_eq_or_imp, forall_eq]
    decide
  refine Words.trim_eq_self ?_
  rw [longMessage_eq, List.forall_mem_append, List.forall_mem_append]
  refine ⟨hhead, fun c hc => ?_, htail⟩
  rw [List.eq_of_mem_replicate hc]
  decide

theorem parseBrowserRequest_longMessage (syntaxError : JsString → JsString) {n : ℕ} (hpos : 0 < n) :
    parseBrowserRequest syntaxError (longMessage n) false =
      .line (JSON.stringify (.object (longProperties n)) ++ ['\n']) := by
  have hne : longMessage n ≠ [] := by
    rw [longMessage_eq]
    exact List.cons_ne_nil _ _
  have htype : (longProperties n).lookup (Utf16.encode "type".toList) = some (.string (List.replicate n 0x78)) := rfl
  have htrim : Words.trim isJsSpaceUnit (List.replicate n 0x78) ≠ [] := by
    have hself : Words.trim isJsSpaceUnit (List.replicate n 0x78) = List.replicate n 0x78 := by
      refine Words.trim_eq_self fun unit hunit => ?_
      rw [List.eq_of_mem_replicate hunit]
      decide
    rw [hself]
    exact fun hnil => absurd (congrArg List.length hnil) (by rw [List.length_replicate, List.length_nil]; omega)
  rw [parseBrowserRequest, if_neg (by decide)]
  simp only [trim_longMessage, if_neg hne, parse_longMessage, htype, if_neg htrim]

/-- A name with a surrogate that stands alone is forwarded and refused; so is a message of 64 KiB with a number that is
longer in the line. -/
theorem forwards_refused_lines :
    (∃ line properties, (Uplink.run id [.message (loginMessage "\\ud800") false]).forwarded = [line] ∧
      JSON.parse (Words.trim isJsSpace (loginMessage "\\ud800")) = some (.object properties) ∧
      ¬ ServerAccepts line properties) ∧
    ∃ line properties, (Uplink.run id [.message (longMessage 65516) false]).forwarded = [line] ∧
      JSON.parse (Words.trim isJsSpace (longMessage 65516)) = some (.object properties) ∧
      ¬ ServerAccepts line properties := by
  constructor
  · obtain ⟨line, hline, hshort⟩ : ∃ line, parseBrowserRequest id (loginMessage "\\ud800") false = .line line ∧
        byteLength line ≤ maxLineBytes :=
      ⟨loginMessage "\\ud800" ++ ['\n'], by decide +kernel, by decide +kernel⟩
    obtain ⟨-, properties, hparse, hstringify⟩ := object_of_parseBrowserRequest hline
    have hlone : (JSON.parse (Words.trim isJsSpace (loginMessage "\\ud800"))).any JSON.Value.wellFormed = false := by
      decide +kernel
    rw [hparse, Option.any_some] at hlone
    refine ⟨line, properties, Uplink.forwarded_message (by decide +kernel) hline hshort, hparse, ?_⟩
    rw [hstringify, serverAccepts_iff (JSON.keys_nodup_of_parse hparse), hlone]
    exact fun haccepts => absurd haccepts.1 nofun
  · have hparse : JSON.parse (Words.trim isJsSpace (longMessage 65516)) = some (.object (longProperties 65516)) := by
      rw [trim_longMessage, parse_longMessage]
    have hsize := size_longProperties 65516
    have hdata : byteLength (longMessage 65516) ≤ maxPayloadBytes := by
      rw [byteLength_longMessage]
      decide
    have hline : byteLength (JSON.stringify (.object (longProperties 65516)) ++ ['\n']) ≤ maxLineBytes := by
      rw [Bridge.byteLength_append, JSON.length_stringify, hsize]
      decide
    refine ⟨_, _, Uplink.forwarded_message hdata (parseBrowserRequest_longMessage id (by omega)) hline, hparse, ?_⟩
    rw [serverAccepts_iff (JSON.keys_nodup_of_parse hparse), hsize]
    exact fun haccepts => absurd haccepts.2 (by decide)

end Gateway

end ChatService
