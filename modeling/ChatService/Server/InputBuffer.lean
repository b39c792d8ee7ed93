import ChatService.Muduo.Buffer
import ChatService.Server.OnMessage

/-!
# `ChatServer::onMessage` on the buffer of the connection

`TcpConnection::handleRead` reads from the socket into `inputBuffer_` and hands the buffer to `onMessage`,
which takes the lines off it.  `OnMessage` says what `onMessage` does to the bytes; here it does it to the
buffer, with the methods that it calls.  The two agree on every stream, however the kernel cuts it.
-/

namespace ChatService

open Byte Muduo

/-- A line that is found ends before the content does. -/
theorem findEOL_lt {b : Buffer} {eol : ℕ} (h : b.findEOL = some eol) : eol + 1 ≤ b.readableBytes := by
  rw [← Buffer.length_contents]
  exact (List.findIdx?_eq_some_iff_getElem.mp h).1

/-- `findEOL`, the line up to there, and `retrieveUntil(eol + 1)`. -/
def takeLine (b : Buffer) : Option (Bytes × Buffer) :=
  match h : b.findEOL with
  | none => none
  | some eol => some (b.contents.take eol, b.retrieve (eol + 1) (findEOL_lt h))

/-- The loop over the complete lines; every round takes at least one byte off the buffer. -/
def bufferLoop : ℕ → Buffer → Buffer × List Reaction
  | 0, b => (b, [])
  | fuel + 1, b =>
    match takeLine b with
    | none => (b, [])
    | some (line, rest) =>
      let later := bufferLoop fuel rest
      (later.1, onLine line ++ later.2)

/-- `inputBuffer_`, and whether the connection was forced closed. -/
structure InputBuffer where
  buffer : Buffer
  closed : Bool

def InputBuffer.onMessage (b : Buffer) : InputBuffer × List Reaction :=
  let (b, reactions) := bufferLoop b.readableBytes b
  if b.readableBytes > kMaxRequestLineBytes then (⟨b, true⟩, reactions ++ [.tooLarge])
  else (⟨b, false⟩, reactions)

/-- `TcpConnection::handleRead`, when `readFd` has read `data`. -/
def InputBuffer.handleRead (connection : InputBuffer) (data : Bytes) : InputBuffer × List Reaction :=
  if connection.closed then (connection, []) else onMessage (connection.buffer.readFd data)

def InputBuffer.handleReads (connection : InputBuffer) : List Bytes → InputBuffer × List Reaction
  | [] => (connection, [])
  | data :: reads =>
    let first := connection.handleRead data
    let later := first.1.handleReads reads
    (later.1, first.2 ++ later.2)

/-- What the buffer stands for. -/
def InputBuffer.inbound (connection : InputBuffer) : LineFraming.Inbound UInt8 :=
  ⟨connection.buffer.contents, connection.closed⟩

theorem takeLine_eq_none {b : Buffer} (h : findEOL b.contents = none) : takeLine b = none := by
  have h' : b.findEOL = none := h
  rw [takeLine]
  split
  · rfl
  · next eol heol => rw [h'] at heol; cases heol

/-- The line that is taken is the first one, and the rest stays in the buffer. -/
theorem takeLine_eq_some {b : Buffer} {eol : ℕ} (h : findEOL b.contents = some eol) :
    ∃ rest, takeLine b = some (b.contents.take eol, rest) ∧ rest.contents = b.contents.drop (eol + 1) := by
  have h' : b.findEOL = some eol := h
  rw [takeLine]
  split
  · next hnone => rw [h'] at hnone; cases hnone
  · next eol' heol =>
    obtain rfl : eol = eol' := Option.some.inj (h'.symm.trans heol)
    exact ⟨_, rfl, b.contents_retrieve _ _⟩

/-- The loop does to the buffer what it does to the bytes. -/
theorem bufferLoop_eq (fuel : ℕ) (b : Buffer) :
    (bufferLoop fuel b).1.contents = (lineLoop fuel b.contents).1 ∧
      (bufferLoop fuel b).2 = (lineLoop fuel b.contents).2 := by
  induction fuel generalizing b with
  | zero => exact ⟨rfl, rfl⟩
  | succ fuel ih =>
    rw [bufferLoop, lineLoop]
    cases heol : findEOL b.contents with
    | none =>
      rw [takeLine_eq_none heol]
      exact ⟨rfl, rfl⟩
    | some eol =>
      obtain ⟨rest, htake, hrest⟩ := takeLine_eq_some heol
      rw [htake]
      dsimp only
      rw [← hrest]
      exact ⟨(ih rest).1, congrArg (onLine (b.contents.take eol) ++ ·) (ih rest).2⟩

theorem onMessage_inbound (b : Buffer) :
    (InputBuffer.onMessage b).1.inbound = (onMessage b.contents).1 ∧
      (InputBuffer.onMessage b).2 = (onMessage b.contents).2 := by
  obtain ⟨hcontents, hreactions⟩ := bufferLoop_eq b.readableBytes b
  rw [← Buffer.length_contents] at hcontents hreactions
  rw [InputBuffer.onMessage, onMessage, ← Buffer.length_contents]
  dsimp only
  rw [← Buffer.length_contents, hcontents, hreactions]
  split_ifs
  · exact ⟨by rw [InputBuffer.inbound, hcontents], rfl⟩
  · exact ⟨by rw [InputBuffer.inbound, hcontents], rfl⟩

theorem handleRead_inbound (connection : InputBuffer) (data : Bytes) :
    (connection.handleRead data).1.inbound = (receive connection.inbound data).1 ∧
      (connection.handleRead data).2 = (receive connection.inbound data).2 := by
  rw [InputBuffer.handleRead, receive]
  by_cases hclosed : connection.closed = true
  · rw [if_pos hclosed, if_pos (show connection.inbound.closed = true from hclosed)]
    exact ⟨rfl, rfl⟩
  · rw [if_neg hclosed, if_neg (show ¬ connection.inbound.closed = true from hclosed)]
    have honMessage := onMessage_inbound (connection.buffer.readFd data)
    rwa [Buffer.contents_readFd] at honMessage

theorem handleReads_inbound (connection : InputBuffer) (reads : List Bytes) :
    (connection.handleReads reads).1.inbound = (receiveAll connection.inbound reads).1 ∧
      (connection.handleReads reads).2 = (receiveAll connection.inbound reads).2 := by
  induction reads generalizing connection with
  | nil => exact ⟨rfl, rfl⟩
  | cons data reads ih =>
    obtain ⟨hfirst, hreactions⟩ := handleRead_inbound connection data
    obtain ⟨hlater, hreactions'⟩ := ih (connection.handleRead data).1
    rw [hfirst] at hlater hreactions'
    exact ⟨hlater, congrArg₂ (· ++ ·) hreactions hreactions'⟩

/-- **The buffer serves the stream.**  Whatever the kernel hands over in its reads, what a fresh connection
does on its buffer, whatever its size at the start, is what `serve` does on the bytes: the same reactions, the
same bytes left over, and the same decision to close. -/
theorem buffer_serves_the_stream (initialSize : ℕ) (reads : List Bytes) :
    ((InputBuffer.mk (.new initialSize) false).handleReads reads).1.inbound = (serve reads).1 ∧
      ((InputBuffer.mk (.new initialSize) false).handleReads reads).2 = (serve reads).2 := by
  have hfresh : (InputBuffer.mk (.new initialSize) false).inbound = ⟨[], false⟩ := by
    rw [InputBuffer.inbound, Buffer.contents_new]
  rw [serve, ← hfresh]
  exact handleReads_inbound _ reads

end ChatService
