import ChatService.Gateway.BrowserRequests

/-!
# One bridge between a browser and the server (`attachBridge` in `ws-gateway/server.js`)

All the handlers of `attachBridge` on the events of its two sockets.  The way to the browser is `Bridge`, and here
comes the way to the server with everything that can happen to it meanwhile: the browser leaves, a socket fails or
is given up, the server closes.  Every setting has its default.

* `Session`, `SocketEvent`, `Session.run` — the state of a bridge and its handlers.
* `Session.Ordered` — what every handler keeps: no line is reordered, repeated or made up.
* `browser_requests_cross` — what the browser sent arrives at the server, whatever else happens; the server
  dispatches the request of each line, in order.
-/

namespace ChatService

namespace Gateway

open Byte LineFraming

/-- The variables of `attachBridge`, and what has become of its sockets. -/
structure Session where
  /-- what the way to the browser works on -/
  bridge : Bridge
  tcpReady : Bool
  queuedLines : List JsString
  wsClosed : Bool
  /-- whether `tcp.end()` was called -/
  tcpEnded : Bool
  /-- the lines of `tcp.write`, those that the socket took and those that came when it took no more -/
  written : List JsString
  dropped : List JsString

/-- The events of the two sockets; a `SyntaxError` or a socket error has a text. -/
inductive SocketEvent where
  | wsMessage (data : JsString) (isBinary : Bool)
  | wsClose
  | wsError
  | tcpConnect
  | tcpData (chunk : Bytes)
  | tcpEnd
  | tcpError (message : JsString)
  | tcpClose (hadError : Bool)

namespace Session

/-- A browser has connected, and the connection to the server is being made. -/
def attached : Session := ⟨.idle [], false, [], false, false, [], []⟩

/-- `JSON.stringify` of the object in `sendGatewayError`. -/
def gatewayErrorText (message : JsString) : JsString :=
  JSON.stringify (.object [(Utf16.encode "type".toList, .string (Utf16.encode "gateway_error".toList)),
    (Utf16.encode "message".toList, .string (Utf16.encode message))])

def sendGatewayError (session : Session) (message : JsString) : Session :=
  if session.bridge.readyState = .OPEN then { session with bridge := session.bridge.send (gatewayErrorText message) }
  else session

/-- `tcp.write`; a socket that was ended or destroyed takes nothing. -/
def tcpWrite (session : Session) (line : JsString) : Session :=
  if session.tcpEnded ∨ session.bridge.tcpDestroyed then { session with dropped := session.dropped ++ [line] }
  else { session with written := session.written ++ [line] }

def writeToTcp (session : Session) (line : JsString) : Session :=
  if byteLength line > maxLineBytes then session.sendGatewayError "request line is too large".toList
  else if session.tcpReady = false then
    if session.queuedLines.length ≥ maxQueuedMessages then
      session.sendGatewayError "gateway TCP connection is not ready".toList
    else { session with queuedLines := session.queuedLines ++ [line] }
  else session.tcpWrite line

/-- The loop; every round takes a line off the queue. -/
def flushLines : List JsString → Session → Session
  | [], session => { session with queuedLines := [] }
  | line :: lines, session => flushLines lines (({ session with queuedLines := lines } : Session).tcpWrite line)

/-- `tcpReady` does not change in the loop. -/
def flushQueuedLines (session : Session) : Session :=
  if session.tcpReady then flushLines session.queuedLines session else session

def destroy (session : Session) : Session :=
  { session with bridge := { session.bridge with tcpDestroyed := true } }

/-- What `decoder.end()` makes of the bytes that it keeps. -/
def decoderEnd (decoder : Bytes) : JsString := if decoder = [] then [] else [Utf8.replacement]

variable (syntaxError : JsString → JsString)

def onMessage (session : Session) (data : JsString) (isBinary : Bool) : Session :=
  match parseBrowserRequest syntaxError data isBinary with
  | .error message => session.sendGatewayError message
  | .line line => session.writeToTcp line

/-- The handlers.  `ws` hands out no message that is too long; a TCP socket is ended with its peer, and destroyed when
it fails or is closed. -/
def step (session : Session) : SocketEvent → Session
  | .wsMessage data isBinary =>
    if byteLength data ≤ maxPayloadBytes then session.onMessage syntaxError data isBinary else session
  | .wsClose =>
    let session :=
      { session with
        wsClosed := true
        bridge := { session.bridge with readyState := .CLOSED } }
    if session.bridge.tcpDestroyed then session else { session with tcpEnded := true }
  | .wsError => if session.bridge.tcpDestroyed then session else session.destroy
  | .tcpConnect => flushQueuedLines { session with tcpReady := true }
  | .tcpData chunk => { session with bridge := session.bridge.onData maxLineBytes chunk }
  | .tcpEnd =>
    let rest := decoderEnd session.bridge.decoder
    let bridge := { session.bridge with decoder := [] }
    { session with
      bridge := if rest = [] then bridge else bridge.handleTcpText maxLineBytes rest
      tcpEnded := true }
  | .tcpError message => (session.sendGatewayError ("TCP chat server error: ".toList ++ message)).destroy
  | .tcpClose hadError =>
    let session := { session with tcpReady := false }.destroy
    if session.wsClosed then session
    else
      { session with
        bridge := session.bridge.closeWebSocket (if hadError then 1011 else 1000)
          "TCP chat server connection closed" }

def run (events : List SocketEvent) : Session := events.foldl (step syntaxError) attached

/-! ### The lines -/

/-- The line of an event, if it is a message with one. -/
def browserLine : SocketEvent → Option JsString
  | .wsMessage data isBinary =>
    if byteLength data ≤ maxPayloadBytes then
      match parseBrowserRequest syntaxError data isBinary with
      | .line line => some line
      | .error _ => none
    else none
  | _ => none

def browserLines (events : List SocketEvent) : List JsString := events.filterMap (browserLine syntaxError)

/-- The lines that were not refused. -/
def lines (session : Session) : List JsString := session.written ++ session.dropped ++ session.queuedLines

/-- `writeToTcp` takes a line that is not too long, unless too many are waiting. -/
def Takes (session : Session) (line : JsString) : Prop :=
  byteLength line ≤ maxLineBytes ∧ (session.tcpReady = true ∨ session.queuedLines.length < maxQueuedMessages)

/-- The socket takes no more. -/
def Gone (session : Session) : Prop := session.tcpEnded = true ∨ session.bridge.tcpDestroyed = true

/-- What every handler keeps. -/
structure Ordered (session : Session) : Prop where
  ready : session.tcpReady = true → session.queuedLines = []
  bounded : session.queuedLines.length ≤ maxQueuedMessages
  gone : session.dropped ≠ [] → session.Gone

theorem ordered_attached : attached.Ordered where
  ready := by simp [attached]
  bounded := by simp [attached]
  gone := by simp [attached]

section

variable {session : Session} {syntaxError}

theorem tcpWrite_gone (h : session.Gone) (line : JsString) :
    session.tcpWrite line = { session with dropped := session.dropped ++ [line] } := if_pos h

theorem tcpWrite_standing (h : ¬session.Gone) (line : JsString) :
    session.tcpWrite line = { session with written := session.written ++ [line] } := if_neg h

/-- A queue that is flushed goes to the socket, … -/
theorem flushLines_standing (lines : List JsString) (h : ¬session.Gone) :
    flushLines lines session =
      { session with
        queuedLines := []
        written := session.written ++ lines } := by
  induction lines generalizing session with
  | nil => rw [flushLines, List.append_nil]
  | cons line lines ih =>
    have hstanding : ¬({ session with queuedLines := lines } : Session).Gone := h
    rw [flushLines, tcpWrite_standing hstanding, ih (by exact h), List.append_assoc]
    rfl

/-- … or is lost when the socket takes no more. -/
theorem flushLines_gone (lines : List JsString) (h : session.Gone) :
    flushLines lines session =
      { session with
        queuedLines := []
        dropped := session.dropped ++ lines } := by
  induction lines generalizing session with
  | nil => rw [flushLines, List.append_nil]
  | cons line lines ih =>
    have hgone : ({ session with queuedLines := lines } : Session).Gone := h
    rw [flushLines, tcpWrite_gone hgone, ih (by exact h), List.append_assoc]
    rfl

theorem sendGatewayError_eq (message : JsString) : ∃ bridge : Bridge,
    bridge.tcpDestroyed = session.bridge.tcpDestroyed ∧
      session.sendGatewayError message = { session with bridge := bridge } := by
  rw [sendGatewayError]
  split_ifs
  · exact ⟨session.bridge.send (gatewayErrorText message), rfl, rfl⟩
  · exact ⟨session.bridge, rfl, rfl⟩

/-- The way to the browser does not touch the lines, and a destroyed socket stays so. -/
theorem Ordered.bridge (h : session.Ordered) {bridge : Bridge}
    (hdestroyed : session.bridge.tcpDestroyed = true → bridge.tcpDestroyed = true) :
    ({ session with bridge := bridge } : Session).Ordered where
  ready := h.ready
  bounded := h.bounded
  gone hdropped := (h.gone hdropped).imp_right hdestroyed

/-- What is written goes behind all that came before it. -/
theorem Ordered.tcpWrite (h : session.Ordered) (hready : session.tcpReady = true) (line : JsString) :
    (session.tcpWrite line).Ordered ∧ (session.tcpWrite line).lines = session.lines ++ [line] := by
  have hqueue := h.ready hready
  by_cases hgone : session.Gone
  · rw [tcpWrite_gone hgone]
    exact ⟨⟨h.ready, h.bounded, fun _ => hgone⟩, by simp [lines, hqueue]⟩
  · rw [tcpWrite_standing hgone]
    have hdropped : session.dropped = [] := by
      by_contra hdropped
      exact hgone (h.gone hdropped)
    exact ⟨⟨h.ready, h.bounded, h.gone⟩, by simp [lines, hqueue, hdropped]⟩

theorem Ordered.flushQueuedLines (h : session.Ordered) :
    (flushQueuedLines { session with tcpReady := true }).Ordered ∧
      (flushQueuedLines { session with tcpReady := true }).lines = session.lines := by
  rw [Session.flushQueuedLines, if_pos rfl]
  by_cases hgone : session.Gone
  · rw [flushLines_gone _ (by exact hgone)]
    exact ⟨⟨fun _ => rfl, Nat.zero_le _, fun _ => hgone⟩, by simp [lines]⟩
  · rw [flushLines_standing _ (by exact hgone)]
    have hdropped : session.dropped = [] := by
      by_contra hdropped
      exact hgone (h.gone hdropped)
    exact ⟨⟨fun _ => rfl, Nat.zero_le _, h.gone⟩, by simp [lines, hdropped]⟩

/-- `writeToTcp` puts the line behind the others, or refuses it. -/
theorem Ordered.writeToTcp (h : session.Ordered) (line : JsString) :
    (session.writeToTcp line).Ordered ∧
      ((session.Takes line ∧ (session.writeToTcp line).lines = session.lines ++ [line]) ∨
        ¬session.Takes line ∧ (session.writeToTcp line).lines = session.lines) := by
  have hrefused (message : JsString) : (session.sendGatewayError message).Ordered ∧
      (session.sendGatewayError message).lines = session.lines := by
    obtain ⟨bridge, hsame, heq⟩ := session.sendGatewayError_eq message
    rw [heq]
    exact ⟨h.bridge fun hdestroyed => hsame.trans hdestroyed, rfl⟩
  rw [Session.writeToTcp]
  split_ifs with hlong hready hfull
  · obtain ⟨hordered, hlines⟩ := hrefused "request line is too large".toList
    exact ⟨hordered, .inr ⟨fun htakes => absurd htakes.1 (by omega), hlines⟩⟩
  · obtain ⟨hordered, hlines⟩ := hrefused "gateway TCP connection is not ready".toList
    refine ⟨hordered, .inr ⟨fun htakes => ?_, hlines⟩⟩
    rcases htakes.2 with hready' | hspace
    · rw [hready] at hready'
      exact absurd hready' (by simp)
    · omega
  · refine ⟨⟨fun hready' => ?_, ?_, h.gone⟩, .inl ⟨⟨by omega, .inr (by omega)⟩, ?_⟩⟩
    · have hready' : session.tcpReady = true := hready'
      rw [hready] at hready'
      exact absurd hready' (by simp)
    · simp only [List.length_append, List.length_singleton]
      omega
    · simp [lines]
  · have hready : session.tcpReady = true := by simpa using hready
    obtain ⟨hordered, hlines⟩ := h.tcpWrite hready line
    exact ⟨hordered, .inl ⟨⟨by omega, .inl hready⟩, hlines⟩⟩

/-! ### The way to the browser keeps a destroyed socket destroyed -/

theorem destroyed_closeWebSocket {bridge : Bridge} (code : ℕ) (reason : String) :
    (bridge.closeWebSocket code reason).tcpDestroyed = bridge.tcpDestroyed := by
  rw [Bridge.closeWebSocket]
  split_ifs <;> rfl

theorem destroyed_onData {bridge : Bridge} (limit : ℕ) (chunk : Bytes) (h : bridge.tcpDestroyed = true) :
    (bridge.onData limit chunk).tcpDestroyed = true := by
  rw [Bridge.onData, if_pos h]
  exact h

/-! ### Every handler -/

/-- An event that is no message leaves the lines as they are. -/
theorem Ordered.step_other (h : session.Ordered) {event : SocketEvent}
    (hevent : ∀ data isBinary, event ≠ .wsMessage data isBinary) :
    (step syntaxError session event).Ordered ∧ (step syntaxError session event).lines = session.lines := by
  cases event with
  | wsMessage data isBinary => exact absurd rfl (hevent data isBinary)
  | wsClose =>
    rw [step]
    split_ifs
    · exact ⟨⟨h.ready, h.bounded, h.gone⟩, rfl⟩
    · exact ⟨⟨h.ready, h.bounded, fun _ => .inl rfl⟩, rfl⟩
  | wsError =>
    rw [step]
    split_ifs
    · exact ⟨h, rfl⟩
    · exact ⟨h.bridge fun _ => rfl, rfl⟩
  | tcpConnect => exact h.flushQueuedLines
  | tcpData chunk => exact ⟨h.bridge (destroyed_onData maxLineBytes chunk), rfl⟩
  | tcpEnd => exact ⟨⟨h.ready, h.bounded, fun _ => .inl rfl⟩, rfl⟩
  | tcpError message =>
    obtain ⟨bridge, hsame, heq⟩ := session.sendGatewayError_eq ("TCP chat server error: ".toList ++ message)
    rw [step, heq]
    exact ⟨h.bridge fun _ => rfl, rfl⟩
  | tcpClose hadError =>
    rw [step]
    split_ifs
    · exact ⟨⟨fun hready => absurd hready (by simp [destroy]), h.bounded, fun _ => .inr rfl⟩, rfl⟩
    all_goals
      exact ⟨⟨fun hready => absurd hready (by simp [destroy]), h.bounded,
        fun _ => .inr (destroyed_closeWebSocket _ _)⟩, rfl⟩

/-- A message puts its line behind the others, if it has one that is not refused. -/
theorem Ordered.step_message (h : session.Ordered) (data : JsString) (isBinary : Bool) :
    (step syntaxError session (.wsMessage data isBinary)).Ordered ∧
      ((∃ line, browserLine syntaxError (.wsMessage data isBinary) = some line ∧ session.Takes line ∧
          (step syntaxError session (.wsMessage data isBinary)).lines = session.lines ++ [line]) ∨
        (∀ line, browserLine syntaxError (.wsMessage data isBinary) = some line → ¬session.Takes line) ∧
          (step syntaxError session (.wsMessage data isBinary)).lines = session.lines) := by
  rw [step, browserLine]
  split_ifs
  · rw [onMessage]
    cases parseBrowserRequest syntaxError data isBinary with
    | error message =>
      obtain ⟨bridge, hsame, heq⟩ := session.sendGatewayError_eq message
      dsimp only
      rw [heq]
      exact ⟨h.bridge fun hdestroyed => hsame.trans hdestroyed, .inr ⟨fun line hline => absurd hline (by simp), rfl⟩⟩
    | line line =>
      obtain ⟨hordered, ⟨htakes, hlines⟩ | ⟨hrefuses, hlines⟩⟩ := h.writeToTcp line
      · exact ⟨hordered, .inl ⟨line, rfl, htakes, hlines⟩⟩
      · refine ⟨hordered, .inr ⟨fun line' hline => ?_, hlines⟩⟩
        obtain rfl := Option.some.inj hline
        exact hrefuses
  · exact ⟨h, .inr ⟨fun line hline => absurd hline (by simp), rfl⟩⟩

section

variable (syntaxError)

/-- **What a handler does to the lines**: it may put the line of a message behind the others, and does so unless
`writeToTcp` refuses it. -/
theorem Ordered.step (h : session.Ordered) (event : SocketEvent) :
    (step syntaxError session event).Ordered ∧
      ∃ taken, (step syntaxError session event).lines = session.lines ++ taken ∧
      taken.Sublist (browserLine syntaxError event).toList ∧
      ∀ line, browserLine syntaxError event = some line → session.Takes line → taken = [line] := by
  by_cases hmessage : ∃ data isBinary, event = .wsMessage data isBinary
  · obtain ⟨data, isBinary, rfl⟩ := hmessage
    obtain ⟨hordered, ⟨line, hline, -, hlines⟩ | ⟨hrefuses, hlines⟩⟩ := h.step_message data isBinary
    · refine ⟨hordered, [line], hlines, by rw [hline]; exact List.Sublist.refl _, fun line' hline' _ => ?_⟩
      rw [hline] at hline'
      rw [Option.some.inj hline']
    · exact ⟨hordered, [], by rw [hlines, List.append_nil], List.nil_sublist _,
        fun line hline htakes => absurd htakes (hrefuses line hline)⟩
  · have hother : ∀ data isBinary, event ≠ .wsMessage data isBinary :=
      fun data isBinary heq => hmessage ⟨data, isBinary, heq⟩
    obtain ⟨hordered, hlines⟩ := h.step_other hother
    have hnone : browserLine syntaxError event = none := by
      cases event with
      | wsMessage data isBinary => exact absurd rfl (hother data isBinary)
      | _ => rfl
    exact ⟨hordered, [], by rw [hlines, List.append_nil], List.nil_sublist _,
      fun line hline => absurd hline (by simp [hnone])⟩

theorem queuedLines_writeToTcp (line : JsString) :
    (session.writeToTcp line).queuedLines.length ≤ session.queuedLines.length + 1 := by
  rw [writeToTcp]
  split_ifs
  · obtain ⟨bridge, -, heq⟩ := session.sendGatewayError_eq "request line is too large".toList
    rw [heq]
    exact Nat.le_succ _
  · obtain ⟨bridge, -, heq⟩ := session.sendGatewayError_eq "gateway TCP connection is not ready".toList
    rw [heq]
    exact Nat.le_succ _
  · exact (List.length_append ..).le
  · rw [tcpWrite]
    split_ifs <;> exact Nat.le_succ _

/-- A session makes its queue longer by one line at most, and only with a message. -/
theorem queuedLines_step (session : Session) (event : SocketEvent) :
    (step syntaxError session event).queuedLines.length ≤
      session.queuedLines.length + (browserLine syntaxError event).toList.length := by
  cases event with
  | wsMessage data isBinary =>
    rw [step, browserLine]
    split_ifs
    · rw [onMessage]
      cases parseBrowserRequest syntaxError data isBinary with
      | error message =>
        obtain ⟨bridge, -, heq⟩ := session.sendGatewayError_eq message
        dsimp only
        rw [heq]
        exact Nat.le_add_right _ _
      | line line => exact queuedLines_writeToTcp line
    · exact Nat.le_add_right _ _
  | tcpConnect =>
    rw [step, flushQueuedLines, if_pos rfl]
    by_cases hgone : session.Gone
    · rw [flushLines_gone _ (by exact hgone)]
      exact Nat.zero_le _
    · rw [flushLines_standing _ (by exact hgone)]
      exact Nat.zero_le _
  | wsClose | wsError | tcpClose =>
    rw [step]
    split_ifs <;> exact Nat.le_add_right _ _
  | tcpError message =>
    obtain ⟨bridge, -, heq⟩ := session.sendGatewayError_eq ("TCP chat server error: ".toList ++ message)
    rw [step, heq]
    exact Nat.le_add_right _ _
  | tcpData | tcpEnd => exact Nat.le_add_right _ _

/-- A connected session stays connected until the socket is closed. -/
theorem tcpReady_step {event : SocketEvent} (hready : session.tcpReady = true)
    (hopen : ∀ hadError, event ≠ .tcpClose hadError) :
    (step syntaxError session event).tcpReady = true := by
  have herror (message : JsString) : (session.sendGatewayError message).tcpReady = true := by
    obtain ⟨bridge, -, heq⟩ := session.sendGatewayError_eq message
    rw [heq]
    exact hready
  cases event with
  | wsMessage data isBinary =>
    rw [step]
    split_ifs
    · rw [onMessage]
      cases parseBrowserRequest syntaxError data isBinary with
      | error message => exact herror message
      | line line =>
        dsimp only
        rw [writeToTcp]
        split_ifs with hlong hdown
        · exact herror _
        · exact herror _
        · exact hready
        · rw [tcpWrite]
          split_ifs <;> exact hready
    · exact hready
  | tcpConnect =>
    rw [step, flushQueuedLines, if_pos rfl]
    by_cases hgone : session.Gone
    · rw [flushLines_gone _ (by exact hgone)]
    · rw [flushLines_standing _ (by exact hgone)]
  | wsClose | wsError =>
    rw [step]
    split_ifs <;> exact hready
  | tcpError message => exact herror _
  | tcpClose hadError => exact absurd rfl (hopen hadError)
  | tcpData | tcpEnd => exact hready

theorem tcpReady_foldl {events : List SocketEvent} (hready : session.tcpReady = true)
    (hopen : ∀ hadError, .tcpClose hadError ∉ events) :
    (events.foldl (Session.step syntaxError) session).tcpReady = true := by
  induction events generalizing session with
  | nil => exact hready
  | cons event events ih =>
    exact ih (tcpReady_step syntaxError hready fun hadError heq => hopen hadError (heq ▸ List.mem_cons_self))
      fun hadError hmem => hopen hadError (List.mem_cons_of_mem _ hmem)

end

theorem browserLines_cons (event : SocketEvent) (events : List SocketEvent) :
    browserLines syntaxError (event :: events) =
      (browserLine syntaxError event).toList ++ browserLines syntaxError events := by
  rw [browserLines, List.filterMap_cons]
  cases browserLine syntaxError event <;> rfl

variable (syntaxError) in
/-- Whatever happens, nothing is reordered, repeated or made up. -/
theorem Ordered.foldl (h : session.Ordered) (events : List SocketEvent) :
    (events.foldl (Session.step syntaxError) session).Ordered ∧
      ∃ taken, (events.foldl (Session.step syntaxError) session).lines = session.lines ++ taken ∧
        taken.Sublist (browserLines syntaxError events) := by
  induction events generalizing session with
  | nil => exact ⟨h, [], by simp, List.Sublist.refl _⟩
  | cons event events ih =>
    obtain ⟨hordered, taken, hlines, hsublist, -⟩ := h.step syntaxError event
    obtain ⟨hordered', taken', hlines', hsublist'⟩ := ih hordered
    refine ⟨hordered', taken ++ taken', ?_, ?_⟩
    · rw [List.foldl_cons, hlines', hlines, List.append_assoc]
    · rw [browserLines_cons]
      exact hsublist.append hsublist'

/-- Lines that are not too long are all taken, as long as there is room for them or the session is connected. -/
theorem Ordered.foldl_of_room (h : session.Ordered) (events : List SocketEvent)
    (hshort : ∀ line ∈ browserLines syntaxError events, byteLength line ≤ maxLineBytes)
    (hroom : session.queuedLines.length + (browserLines syntaxError events).length ≤ maxQueuedMessages ∨
      session.tcpReady = true ∧ ∀ hadError, .tcpClose hadError ∉ events) :
    (events.foldl (Session.step syntaxError) session).lines = session.lines ++ browserLines syntaxError events := by
  induction events generalizing session with
  | nil => exact (List.append_nil _).symm
  | cons event events ih =>
    rw [browserLines_cons] at hshort hroom
    rw [List.forall_mem_append] at hshort
    obtain ⟨hordered, taken, hlines, hsublist, htakes⟩ := h.step syntaxError event
    have htaken : taken = (browserLine syntaxError event).toList := by
      cases hline : browserLine syntaxError event with
      | none =>
        rw [hline] at hsublist
        exact List.sublist_nil.mp hsublist
      | some line =>
        rw [hline] at hshort hroom
        refine htakes line hline ⟨hshort.1 line (by simp), ?_⟩
        rcases hroom with hroom | hroom
        · simp only [List.length_append, Option.toList_some, List.length_singleton] at hroom
          exact .inr (by omega)
        · exact .inl hroom.1
    rw [List.foldl_cons, ih hordered hshort.2, hlines, htaken, browserLines_cons, List.append_assoc]
    rcases hroom with hroom | ⟨hready, hopen⟩
    · have hqueue := session.queuedLines_step syntaxError event
      rw [List.length_append] at hroom
      exact .inl (by omega)
    · exact .inr ⟨tcpReady_step syntaxError hready fun hadError heq => hopen hadError (heq ▸ List.mem_cons_self),
        fun hadError hmem => hopen hadError (List.mem_cons_of_mem _ hmem)⟩

theorem browserLines_append (before after : List SocketEvent) :
    browserLines syntaxError (before ++ after) = browserLines syntaxError before ++ browserLines syntaxError after :=
  List.filterMap_append

/-- What a bridge that stays connected has written. -/
theorem written_of_connected {before after : List SocketEvent}
    (hshort : ∀ line ∈ browserLines syntaxError (before ++ .tcpConnect :: after), byteLength line ≤ maxLineBytes)
    (hroom : (browserLines syntaxError before).length ≤ maxQueuedMessages)
    (hopen : ∀ hadError, .tcpClose hadError ∉ after)
    (hstanding : ¬(run syntaxError (before ++ .tcpConnect :: after)).Gone) :
    (run syntaxError (before ++ .tcpConnect :: after)).written =
      browserLines syntaxError (before ++ .tcpConnect :: after) := by
  rw [run, List.foldl_append, List.foldl_cons] at hstanding ⊢
  rw [browserLines_append, browserLines_cons] at hshort ⊢
  obtain ⟨hshortBefore, hshortAfter⟩ := List.forall_mem_append.mp hshort
  -- before the connection is made, …
  have hbefore := ordered_attached.foldl_of_room before hshortBefore (.inl (by simpa [attached] using hroom))
  obtain ⟨hqueued, -⟩ := ordered_attached.foldl syntaxError before
  generalize before.foldl (Session.step syntaxError) attached = waiting at hstanding hbefore hqueued ⊢
  -- … when it is, …
  obtain ⟨hconnected, hflushed⟩ := hqueued.flushQueuedLines
  have hready : (Session.step syntaxError waiting .tcpConnect).tcpReady = true := by
    rw [Session.step, flushQueuedLines, if_pos rfl]
    by_cases hgone : waiting.Gone
    · rw [flushLines_gone _ (by exact hgone)]
    · rw [flushLines_standing _ (by exact hgone)]
  -- … and from then on
  have hafter := hconnected.foldl_of_room after hshortAfter (.inr ⟨hready, hopen⟩)
  have hend := hconnected.foldl syntaxError after
  have hstill := tcpReady_foldl syntaxError hready hopen
  rw [Session.step] at hstanding hstill ⊢
  generalize after.foldl (Session.step syntaxError) (flushQueuedLines { waiting with tcpReady := true }) = session
    at hstanding hafter hend hstill ⊢
  have hdropped : session.dropped = [] := by
    by_contra hdropped
    exact hstanding (hend.1.gone hdropped)
  rw [hflushed, hbefore] at hafter
  simpa [lines, hdropped, hend.1.ready hstill, attached, browserLine] using hafter

/-- A line of the browser comes from a message. -/
theorem message_of_browserLine {events : List SocketEvent} {line : JsString}
    (h : line ∈ browserLines syntaxError events) :
    ∃ data, .wsMessage data false ∈ events ∧ parseBrowserRequest syntaxError data false = .line line := by
  obtain ⟨event, hevent, hline⟩ := List.mem_filterMap.mp h
  cases event with
  | wsMessage data isBinary =>
    rw [browserLine] at hline
    split_ifs at hline
    cases hparse : parseBrowserRequest syntaxError data isBinary with
    | error message =>
      rw [hparse] at hline
      exact absurd hline (by simp)
    | line line' =>
      rw [hparse] at hline
      obtain rfl := Option.some.inj hline
      obtain ⟨rfl, -⟩ := object_of_parseBrowserRequest hparse
      exact ⟨data, hevent, hparse⟩
  | _ => exact absurd hline (by simp [browserLine])

end

end Session

/-! ### What the server makes of the lines -/

/-- A reaction of the server to a line of the browser: it dispatches the object of the message, with every string as
it was sent. -/
def Dispatched (syntaxError : JsString → JsString) (line : JsString) (reaction : Reaction) : Prop :=
  ∃ data properties body request, parseBrowserRequest syntaxError data false = .line line ∧
    JSON.parse (Words.trim isJsSpace data) = some (.object properties) ∧
    Utf8.encode line = body ++ [newline] ∧ reaction = .dispatch body request ∧
    ∀ key units, (key, JSON.Value.string units) ∈ properties → ∃ name text : Bytes,
      JSON.utf8 key = some name ∧ JSON.utf8 units = some text ∧ request[name]? = some text

/-- The object of a message has no lone surrogate and a text that the server reads in one line. -/
def Fit (data : JsString) : Prop :=
  ∀ properties, JSON.parse (Words.trim isJsSpace data) = some (.object properties) →
    (JSON.Value.object properties).wellFormed = true ∧ (JSON.Value.object properties).size ≤ kMaxRequestLineBytes

variable {syntaxError : JsString → JsString}

theorem reaction_of_line {data line : JsString} (hdata : parseBrowserRequest syntaxError data false = .line line)
    (hfit : Fit data) :
    ∃ body reaction, Utf8.encode line = body ++ [newline] ∧ newline ∉ body ∧ body.length ≤ kMaxRequestLineBytes ∧
      onLine body = [reaction] ∧ Dispatched syntaxError line reaction := by
  obtain ⟨-, properties, hparse, rfl⟩ := object_of_parseBrowserRequest hdata
  obtain ⟨body, request, hline, hnewline, hshort, -, hstrings, hserve⟩ :=
    (serverAccepts_iff (JSON.keys_nodup_of_parse hparse)).mpr (hfit properties hparse)
  refine ⟨body, .dispatch body request, hline, hnewline, hshort, ?_,
    data, properties, body, request, hdata, hparse, hline, rfl, hstrings⟩
  -- the server reacts to the line alone as it does to the line in a stream
  have hsingle := hserve [body ++ [newline]] (by rw [hline]; simp)
  have hjoin : requestFramer.run [body ++ [newline]] = (⟨[], false⟩, [body].flatMap requestFramer.react) :=
    requestFramer.run_join (List.forall_mem_singleton.mpr hnewline) (List.forall_mem_singleton.mpr hshort)
      (by simp [join, requestFramer])
  rw [serve_eq_run, hjoin] at hsingle
  simpa [requestFramer] using congrArg Prod.snd hsingle

/-- The server dispatches the lines one after another, however the bytes arrive. -/
theorem serve_lines {lines : List JsString}
    (hlines : ∀ line ∈ lines, ∃ data, parseBrowserRequest syntaxError data false = .line line ∧ Fit data)
    {reads : List Bytes} (hreads : reads.flatten = Utf8.encode lines.flatten) :
    ∃ reactions, serve reads = (⟨[], false⟩, reactions) ∧ List.Forall₂ (Dispatched syntaxError) lines reactions := by
  obtain ⟨bodies, hjoin, hnewlines, hshort, hreactions⟩ : ∃ bodies : List Bytes,
      Utf8.encode lines.flatten = join newline bodies ∧ (∀ body ∈ bodies, newline ∉ body) ∧
        (∀ body ∈ bodies, body.length ≤ kMaxRequestLineBytes) ∧
        List.Forall₂ (Dispatched syntaxError) lines (bodies.flatMap onLine) := by
    clear hreads
    induction lines with
    | nil => exact ⟨[], rfl, by simp, by simp, .nil⟩
    | cons line lines ih =>
      obtain ⟨bodies, hjoin, hnewlines, hshort, hreactions⟩ := ih fun line hline =>
        hlines line (List.mem_cons_of_mem _ hline)
      obtain ⟨data, hdata, hfit⟩ := hlines line List.mem_cons_self
      obtain ⟨body, reaction, hbody, hnewline, hlength, hreact, hdispatched⟩ := reaction_of_line hdata hfit
      refine ⟨body :: bodies, ?_, List.forall_mem_cons.mpr ⟨hnewline, hnewlines⟩,
        List.forall_mem_cons.mpr ⟨hlength, hshort⟩, ?_⟩
      · rw [List.flatten_cons, Utf8.encode_append, hbody, hjoin, join_cons, List.append_assoc]
        rfl
      · rw [List.flatMap_cons, hreact]
        exact .cons hdispatched hreactions
  have hrun := requestFramer.run_join hnewlines hshort (hreads.trans hjoin)
  exact ⟨_, (serve_eq_run reads).trans hrun, hreactions⟩

/-- **What the browser sent arrives at the server.**  Whatever happens to the two sockets, in any order: the lines that
were written, then those that were lost with the socket, then those that wait are lines of the browser, in their
order and each at most once; no more than a hundred wait, and none when the connection stands; a line is lost only
when the socket was ended or destroyed.  If the browser has sent no more than a hundred lines before the connection
was made, none of them too long, and nothing ends the connection, then everything the browser has sent was written.
And if every message of the browser is fit for the server, it dispatches every request that was written, in order,
however the bytes arrive. -/
theorem browser_requests_cross (syntaxError : JsString → JsString) (events : List SocketEvent) :
    (Session.run syntaxError events).lines.Sublist (Session.browserLines syntaxError events) ∧
      (Session.run syntaxError events).Ordered ∧
      (∀ before after, events = before ++ .tcpConnect :: after →
        (∀ line ∈ Session.browserLines syntaxError events, byteLength line ≤ maxLineBytes) →
        (Session.browserLines syntaxError before).length ≤ maxQueuedMessages →
        (∀ hadError, .tcpClose hadError ∉ after) → ¬(Session.run syntaxError events).Gone →
        (Session.run syntaxError events).written = Session.browserLines syntaxError events) ∧
      ((∀ data, .wsMessage data false ∈ events → Fit data) → ∀ reads : List Bytes,
        reads.flatten = Utf8.encode (Session.run syntaxError events).written.flatten →
        ∃ reactions, serve reads = (⟨[], false⟩, reactions) ∧
          List.Forall₂ (Dispatched syntaxError) (Session.run syntaxError events).written reactions) := by
  obtain ⟨hordered, taken, htaken, hsublist⟩ := Session.ordered_attached.foldl syntaxError events
  have hlines : (Session.run syntaxError events).lines.Sublist (Session.browserLines syntaxError events) := by
    rw [Session.run, htaken]
    exact hsublist
  refine ⟨hlines, hordered, ?_, ?_⟩
  · rintro before after rfl hshort hroom hopen hstanding
    exact Session.written_of_connected hshort hroom hopen hstanding
  · intro hfit reads hreads
    refine serve_lines (fun line hline => ?_) hreads
    have hbrowser : line ∈ Session.browserLines syntaxError events :=
      hlines.subset (List.mem_append_left _ (List.mem_append_left _ hline))
    obtain ⟨data, hmem, hparse⟩ := Session.message_of_browserLine hbrowser
    exact ⟨data, hparse, hfit data hmem⟩

/-- A login that waits until the connection is made. -/
def loginWaits : List SocketEvent := [.wsMessage (loginMessage "a") false, .tcpConnect]

/-- It arrives. -/
theorem login_crosses : (Session.run id loginWaits).written = [loginMessage "a" ++ ['\n']] ∧
    ∃ reactions, serve [Utf8.encode (loginMessage "a" ++ ['\n'])] = (⟨[], false⟩, reactions) ∧
      List.Forall₂ (Dispatched id) [loginMessage "a" ++ ['\n']] reactions := by
  have hwritten : (Session.run id loginWaits).written = [loginMessage "a" ++ ['\n']] := by decide +kernel
  refine ⟨hwritten, ?_⟩
  obtain ⟨-, -, -, hserver⟩ := browser_requests_cross id loginWaits
  rw [hwritten] at hserver
  refine hserver (fun data hdata properties hparse => ?_) _ (by simp)
  have hcheck : (JSON.parse (Words.trim isJsSpace (loginMessage "a"))).any
      (fun value => value.wellFormed && decide (value.size ≤ kMaxRequestLineBytes)) = true := by decide +kernel
  simp only [loginWaits, List.mem_cons, SocketEvent.wsMessage.injEq, and_true, reduceCtorEq, List.not_mem_nil,
    or_false] at hdata
  rw [← hdata, hparse, Option.any_some, Bool.and_eq_true, decide_eq_true_eq] at hcheck
  exact hcheck

end Gateway

end ChatService
