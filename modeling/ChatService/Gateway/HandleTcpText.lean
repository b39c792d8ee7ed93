import ChatService.Foundation.Bytes
import ChatService.Foundation.LineFraming
import ChatService.Foundation.Utf8
import ChatService.Foundation.Words

/-!
# From the server to the browser (`ws-gateway/server.js`)

What `attachBridge` does with the bytes of the chat server.  A `StringDecoder` makes text of them;
`handleTcpText` collects the text, sends every complete line on as a WebSocket message, and gives the bridge
up when what is left is too long.  A string that was decoded from UTF-8 is the list of its characters.

* `onChunks_of_short` — a stream whose lines are within the limit is sent on line by line, however it is cut.
* `onChunks_cut_before` — a longer line is lost when a cut falls in front of its newline.
-/

namespace ChatService

namespace Gateway

open LineFraming

abbrev JsString := List Char

/-- `config.tcp.maxLineBytes` where the environment does not set `CHAT_TCP_MAX_LINE_BYTES`. -/
def maxLineBytes : ℕ := 256 * 1024

/-- `Buffer.byteLength(text, 'utf8')`. -/
def byteLength (text : JsString) : ℕ := (Utf8.encode text).length

/-- What `String.prototype.trim` takes away: white space and line terminators. -/
def isJsSpace (c : Char) : Bool :=
  [0x09, 0x0a, 0x0b, 0x0c, 0x0d, 0x20, 0xa0, 0x1680, 0x2028, 0x2029, 0x202f, 0x205f, 0x3000, 0xfeff].contains
    c.toNat || (0x2000 ≤ c.toNat && c.toNat ≤ 0x200a)

/-- `ws.readyState`. -/
inductive ReadyState where
  | CONNECTING
  | OPEN
  | CLOSING
  | CLOSED
deriving DecidableEq, Repr

/-- The variables of `attachBridge` that the way back uses, and what has happened to its two sockets. -/
structure Bridge where
  /-- the bytes that the decoder keeps -/
  decoder : Bytes
  tcpBuffer : JsString
  tcpDestroyed : Bool
  readyState : ReadyState
  /-- the messages of `ws.send`, latest last -/
  sent : List JsString
  closed : Option (ℕ × String)
deriving DecidableEq

namespace Bridge

/-- Both connections stand. -/
def receiving (decoder : Bytes) (tcpBuffer : JsString) (sent : List JsString) : Bridge :=
  ⟨decoder, tcpBuffer, false, .OPEN, sent, none⟩

/-- Both connections stand, and the last line is complete. -/
def idle (sent : List JsString) : Bridge := receiving [] [] sent

def send (bridge : Bridge) (message : JsString) : Bridge := { bridge with sent := bridge.sent ++ [message] }

/-- The JSON text of the object in `sendGatewayError`; the messages need no escapes. -/
def gatewayError (message : String) : JsString :=
  ("\x7b\"type\":\"gateway_error\",\"message\":\"" ++ message ++ "\"\x7d").toList

def sendGatewayError (bridge : Bridge) (message : String) : Bridge :=
  if bridge.readyState = .OPEN then bridge.send (gatewayError message) else bridge

def closeWebSocket (bridge : Bridge) (code : ℕ) (reason : String) : Bridge :=
  if bridge.readyState = .OPEN ∨ bridge.readyState = .CONNECTING then
    { bridge with readyState := .CLOSING, closed := some (code, reason) }
  else bridge

/-- The body of the loop for one line. -/
def forwardLine (bridge : Bridge) (line : JsString) : Bridge :=
  let line := if line.getLast? = some '\r' then line.dropLast else line
  if Words.trim isJsSpace line ≠ [] ∧ bridge.readyState = .OPEN then bridge.send line else bridge

/-- The loop; every round takes at least the newline off the buffer. -/
def forwardLines : ℕ → Bridge → Bridge
  | 0, bridge => bridge
  | fuel + 1, bridge =>
    match bridge.tcpBuffer.findIdx? (· == '\n') with
    | none => bridge
    | some newlineIndex =>
      let line := bridge.tcpBuffer.take newlineIndex
      forwardLines fuel
        (forwardLine { bridge with tcpBuffer := bridge.tcpBuffer.drop (newlineIndex + 1) } line)

def handleTcpText (limit : ℕ) (bridge : Bridge) (text : JsString) : Bridge :=
  let tcpBuffer := bridge.tcpBuffer ++ text
  let bridge := forwardLines tcpBuffer.length { bridge with tcpBuffer }
  if byteLength bridge.tcpBuffer > limit then
    closeWebSocket
      { sendGatewayError bridge "response line from TCP server is too large" with tcpDestroyed := true } 1011
      "TCP response line too large"
  else bridge

/-- A `data` event; there is none behind `tcp.destroy()`. -/
def onData (limit : ℕ) (bridge : Bridge) (chunk : Bytes) : Bridge :=
  if bridge.tcpDestroyed then bridge
  else
    let (text, decoder) := Utf8.write bridge.decoder chunk
    handleTcpText limit { bridge with decoder } text

def onChunks (limit : ℕ) (bridge : Bridge) (chunks : List Bytes) : Bridge := chunks.foldl (onData limit) bridge

example : (onChunks 20 (idle []) [ascii "one\r\n\n tw", ascii "o\nthree"]) =
    receiving [] "three".toList ["one".toList, " two".toList] := by decide +kernel

/-! ### A stream of lines -/

/-- The message that a line is sent on as, if it is. -/
def forwarded (line : JsString) : Option JsString :=
  let line := if line.getLast? = some '\r' then line.dropLast else line
  if Words.trim isJsSpace line = [] then none else some line

variable {limit : ℕ} {decoder : Bytes} {buffer : JsString} {sent : List JsString}

theorem forwardLine_receiving (line : JsString) :
    forwardLine (receiving decoder buffer sent) line =
      receiving decoder buffer (sent ++ (forwarded line).toList) := by
  rw [forwardLine, forwarded]
  generalize (if line.getLast? = some '\r' then line.dropLast else line) = line
  by_cases hblank : Words.trim isJsSpace line = []
  · rw [if_neg fun h => h.1 hblank, if_pos hblank, Option.toList_none, List.append_nil]
  · rw [if_pos ⟨hblank, rfl⟩, if_neg hblank]
    rfl

/-- The loop sends the complete lines on and leaves the rest. -/
theorem forwardLines_receiving {fuel : ℕ} (h : buffer.length ≤ fuel) :
    forwardLines fuel (receiving decoder buffer sent) =
      receiving decoder (cut '\n' buffer).2 (sent ++ (cut '\n' buffer).1.filterMap forwarded) := by
  induction fuel generalizing buffer sent with
  | zero =>
    obtain rfl : buffer = [] := List.length_eq_zero_iff.mp (by omega)
    rw [cut_nil, List.filterMap_nil, List.append_nil]
    rfl
  | succ fuel ih =>
    show (match buffer.findIdx? (· == '\n') with
      | none => receiving decoder buffer sent
      | some newlineIndex => forwardLines fuel (forwardLine
          (receiving decoder (buffer.drop (newlineIndex + 1)) sent) (buffer.take newlineIndex))) = _
    cases hfind : buffer.findIdx? (· == '\n') with
    | none =>
      rw [cut_of_not_mem (not_mem_of_findIdx? hfind), List.filterMap_nil, List.append_nil]
    | some newlineIndex =>
      obtain ⟨hline, hsplit⟩ := split_of_findIdx? hfind
      have hcut := cut_line hline (buffer.drop (newlineIndex + 1))
      rw [← hsplit] at hcut
      have hlen : (buffer.drop (newlineIndex + 1)).length ≤ fuel := by
        rw [List.length_drop]
        omega
      dsimp only
      rw [forwardLine_receiving, ih hlen, hcut, List.append_assoc, List.filterMap_cons]
      cases forwarded (buffer.take newlineIndex) <;> rfl

theorem byteLength_append (xs ys : JsString) : byteLength (xs ++ ys) = byteLength xs + byteLength ys := by
  rw [byteLength, Utf8.encode_append, List.length_append]
  rfl

theorem byteLength_mono {xs ys : JsString} (h : xs <+: ys) : byteLength xs ≤ byteLength ys := by
  obtain ⟨zs, rfl⟩ := h
  rw [byteLength_append]
  omega

theorem handleTcpText_receiving (text : JsString) :
    handleTcpText limit (receiving decoder buffer sent) text =
      let bridge := receiving decoder (cut '\n' (buffer ++ text)).2
        (sent ++ (cut '\n' (buffer ++ text)).1.filterMap forwarded)
      if byteLength bridge.tcpBuffer > limit then
        closeWebSocket
          { sendGatewayError bridge "response line from TCP server is too large" with tcpDestroyed := true } 1011
          "TCP response line too large"
      else bridge := by
  rw [← forwardLines_receiving le_rfl]
  rfl

/-- **A stream of lines is sent on line by line**, whatever the cuts, if no line is too long. -/
theorem onChunks_of_short {chunks : List Bytes} {lines : List JsString} {rest : JsString}
    (hbuffer : '\n' ∉ buffer)
    (hstream : cut '\n' (buffer ++ (Utf8.write decoder chunks.flatten).1) = (lines, rest))
    (hlines : ∀ line ∈ lines, byteLength line ≤ limit) (hrest : byteLength rest ≤ limit) :
    onChunks limit (receiving decoder buffer sent) chunks =
      receiving (Utf8.write decoder chunks.flatten).2 rest (sent ++ lines.filterMap forwarded) := by
  induction chunks generalizing decoder buffer sent lines with
  | nil =>
    rw [List.flatten_nil, Utf8.write, List.append_nil, cut_of_not_mem hbuffer] at hstream
    obtain ⟨rfl, rfl⟩ := Prod.mk.inj hstream
    rw [List.filterMap_nil, List.append_nil]
    rfl
  | cons chunk chunks ih =>
    rw [List.flatten_cons, Utf8.write_append, ← List.append_assoc, cut_append] at hstream
    obtain ⟨rfl, hlater⟩ := Prod.mk.inj hstream
    have hnewline := not_mem_rest (d := '\n') (buffer ++ (Utf8.write decoder chunk).1)
    generalize hfirst : cut '\n' (buffer ++ (Utf8.write decoder chunk).1) = first at hlines hlater hnewline ⊢
    have hlines' := fun line hline => hlines line (List.mem_append_right _ hline)
    -- what the chunk leaves behind begins a line, or the rest
    have hshort : byteLength first.2 ≤ limit := by
      rcases prefix_of_not_mem hnewline (Utf8.write (Utf8.write decoder chunk).2 chunks.flatten).1 with
        ⟨line, hline, hfront⟩ | hfront
      · exact (byteLength_mono hfront).trans (hlines' line hline)
      · rw [hlater] at hfront
        exact (byteLength_mono hfront).trans hrest
    have hdata : onData limit (receiving decoder buffer sent) chunk =
        receiving (Utf8.write decoder chunk).2 first.2 (sent ++ first.1.filterMap forwarded) := by
      show handleTcpText limit (receiving (Utf8.write decoder chunk).2 buffer sent) (Utf8.write decoder chunk).1 = _
      rw [handleTcpText_receiving, hfirst]
      exact if_neg (Nat.not_lt.mpr hshort)
    show onChunks limit (onData limit (receiving decoder buffer sent) chunk) chunks = _
    rw [hdata, ih hnewline (Prod.ext rfl hlater) hlines', List.filterMap_append, List.append_assoc,
      List.flatten_cons, Utf8.write_append]

theorem onChunks_of_destroyed {bridge : Bridge} (h : bridge.tcpDestroyed = true) (chunks : List Bytes) :
    onChunks limit bridge chunks = bridge := by
  induction chunks with
  | nil => rfl
  | cons chunk chunks ih =>
    show onChunks limit (onData limit bridge chunk) chunks = bridge
    rw [onData, if_pos h]
    exact ih

/-- **A longer line is lost** when a cut falls in front of its newline: the browser gets an error, and both
connections are given up. -/
theorem onChunks_cut_before {line : JsString} (hnewline : '\n' ∉ line) (hlong : limit < byteLength line)
    (chunks : List Bytes) :
    onChunks limit (idle sent) (Utf8.encode line :: chunks) =
      ⟨[], line, true, .CLOSING, sent ++ [gatewayError "response line from TCP server is too large"],
        some (1011, "TCP response line too large")⟩ := by
  have hdata : onData limit (idle sent) (Utf8.encode line) =
      ⟨[], line, true, .CLOSING, sent ++ [gatewayError "response line from TCP server is too large"],
        some (1011, "TCP response line too large")⟩ := by
    show handleTcpText limit (receiving (Utf8.write [] (Utf8.encode line)).2 [] sent)
      (Utf8.write [] (Utf8.encode line)).1 = _
    rw [Utf8.write_encode, handleTcpText_receiving, List.nil_append, cut_of_not_mem hnewline,
      List.filterMap_nil, List.append_nil]
    exact if_pos hlong
  show onChunks limit (onData limit (idle sent) (Utf8.encode line)) chunks = _
  rw [hdata]
  exact onChunks_of_destroyed rfl chunks

/-- **One line.**  It is sent on as one message, whatever the cuts, exactly if it is not too long. -/
theorem onChunks_line_iff {line : JsString} (hnewline : '\n' ∉ line) (hforwarded : forwarded line = some line) :
    (∀ chunks : List Bytes, chunks.flatten = Utf8.encode (line ++ ['\n']) →
      onChunks limit (idle sent) chunks = idle (sent ++ [line])) ↔ byteLength line ≤ limit := by
  constructor
  · intro hall
    by_contra hlong
    have hchunks := hall [Utf8.encode line, Utf8.encode ['\n']] (by simp)
    rw [onChunks_cut_before hnewline (Nat.not_le.mp hlong)] at hchunks
    have hdestroyed : true = false := congrArg tcpDestroyed hchunks
    exact absurd hdestroyed (by decide)
  · intro hshort chunks hchunks
    have hwrite : Utf8.write [] chunks.flatten = (line ++ ['\n'], []) := by
      rw [hchunks, Utf8.write_encode]
    have hstream : cut '\n' ([] ++ (Utf8.write [] chunks.flatten).1) = ([line], []) := by
      rw [hwrite]
      simpa using cut_line hnewline []
    have hlines : ∀ l ∈ [line], byteLength l ≤ limit := by simpa using hshort
    rw [idle, onChunks_of_short List.not_mem_nil hstream hlines (Nat.zero_le _), hwrite, List.filterMap_cons,
      hforwarded]
    rfl

end Bridge

end Gateway

end ChatService
