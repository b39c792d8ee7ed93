import ChatService.Common.JsonRoundTrip
import ChatService.Common.JsonSafety
import ChatService.Foundation.LineFraming

/-!
# `ChatServer::onMessage`: from bytes to requests

Every read appends to the connection's buffer and runs `onMessage`, which takes the complete lines
off the buffer one by one, parses each, and then tests what is left against `kMaxRequestLineBytes`.
The *reactions* are what it does, in order: handing a request to `ChatSession::handleRequest`,
answering with a parse error, or answering that the line is too large and forcing the connection
closed.  After `forceClose` the loop of the connection runs no `onMessage` any more.

`onMessage` is an instance of the framer of `ChatService.Foundation.LineFraming`
(`onMessage_eq_turn`), so what is proved there of any framer holds of it.
-/

namespace ChatService

open Byte LineFraming

def kMaxRequestLineBytes : ℕ := 64 * 1024

/-- What `onMessage` does about a line, or about the buffer.  The line itself is kept in the record;
the server hands on the request or the error only. -/
inductive Reaction where
  | dispatch (line : Bytes) (request : JsonObject)
  | parseError (line : Bytes) (error : Bytes)
  | fault (line : Bytes)
  | tooLarge
deriving DecidableEq

/-- `Buffer::findEOL`, as an offset from `peek()`. -/
def findEOL (buffer : Bytes) : Option ℕ := buffer.findIdx? (· == newline)

/-- Drop one carriage return at the end of a line. -/
def stripCarriageReturn (line : Bytes) : Bytes :=
  if line.getLast? = some carriageReturn then line.dropLast else line

/-- The body of the loop for one line. -/
def onLine (line : Bytes) : List Reaction :=
  let line := stripCarriageReturn line
  if line = [] then []
  else
    match parseJsonObject line with
    | .ok request _ => [.dispatch line request]
    | .error error _ => [.parseError line error]
    | .outOfRange => [.fault line]
    | .outOfFuel => [.fault line]

/-- The loop over the complete lines; every round takes at least one byte off the buffer. -/
def lineLoop : ℕ → Bytes → Bytes × List Reaction
  | 0, buffer => (buffer, [])
  | fuel + 1, buffer =>
    match findEOL buffer with
    | none => (buffer, [])
    | some eol =>
      let line := buffer.take eol
      let later := lineLoop fuel (buffer.drop (eol + 1))
      (later.1, onLine line ++ later.2)

/-- One call, on the buffer with the new bytes appended. -/
def onMessage (buffer : Bytes) : Inbound UInt8 × List Reaction :=
  let (buffer, reactions) := lineLoop buffer.length buffer
  if buffer.length > kMaxRequestLineBytes then (⟨buffer, true⟩, reactions ++ [.tooLarge])
  else (⟨buffer, false⟩, reactions)

/-- One read: the bytes are appended to the buffer, and `onMessage` runs.  A connection that was
forced closed reads no more. -/
def receive (connection : Inbound UInt8) (read : Bytes) : Inbound UInt8 × List Reaction :=
  if connection.closed then (connection, []) else onMessage (connection.pending ++ read)

def receiveAll (connection : Inbound UInt8) : List Bytes → Inbound UInt8 × List Reaction
  | [] => (connection, [])
  | read :: reads =>
    let first := receive connection read
    let later := receiveAll first.1 reads
    (later.1, first.2 ++ later.2)

/-- A fresh connection over which a stream arrives cut into `reads`. -/
def serve (reads : List Bytes) : Inbound UInt8 × List Reaction := receiveAll ⟨[], false⟩ reads

/-! ### `onMessage` is a framer -/

/-- The framer that `onMessage` is. -/
def requestFramer : Framer UInt8 Reaction where
  delimiter := newline
  limit := kMaxRequestLineBytes
  react := onLine
  overflow := .tooLarge

/-- The loop reacts to the closed lines and leaves the rest. -/
theorem lineLoop_eq {fuel : ℕ} {buffer : Bytes} (h : buffer.length ≤ fuel) :
    lineLoop fuel buffer = ((cut newline buffer).2, (cut newline buffer).1.flatMap onLine) := by
  induction fuel generalizing buffer with
  | zero =>
    obtain rfl : buffer = [] := List.length_eq_zero_iff.mp (by omega)
    rfl
  | succ fuel ih =>
    rw [lineLoop]
    cases hf : findEOL buffer with
    | none =>
      rw [cut_of_not_mem (not_mem_of_findIdx? hf)]
      rfl
    | some eol =>
      obtain ⟨hline, hsplit⟩ := split_of_findIdx? hf
      have hlen : (buffer.drop (eol + 1)).length ≤ fuel := by
        rw [List.length_drop]
        omega
      have hcut := cut_line hline (buffer.drop (eol + 1))
      rw [← hsplit] at hcut
      rw [hcut]
      simp only [ih hlen, List.flatMap_cons]

/-- **`onMessage` is one turn of the request framer.** -/
theorem onMessage_eq_turn (buffer : Bytes) : onMessage buffer = requestFramer.turn buffer := by
  rw [onMessage, lineLoop_eq le_rfl]
  rfl

theorem receiveAll_eq (connection : Inbound UInt8) (reads : List Bytes) :
    receiveAll connection reads = requestFramer.receiveAll connection reads := by
  induction reads generalizing connection with
  | nil => rfl
  | cons read reads ih =>
    have hfirst : receive connection read = requestFramer.receive connection read := by
      rw [receive, Framer.receive, onMessage_eq_turn]
    rw [receiveAll, Framer.receiveAll, hfirst, ih]

theorem serve_eq_run (reads : List Bytes) : serve reads = requestFramer.run reads :=
  receiveAll_eq _ reads

/-- A line within the limit arrives as that line. -/
theorem serve_line {text : Bytes} (hnewline : newline ∉ text) (hshort : text.length ≤ kMaxRequestLineBytes)
    {reads : List Bytes} (hreads : reads.flatten = text ++ [newline]) :
    serve reads = (⟨[], false⟩, onLine text) := by
  have hcut : cut newline reads.flatten = ([text], []) := by
    rw [hreads]
    simpa using cut_line hnewline []
  have hlines : ∀ line ∈ (cut newline reads.flatten).1, line.length ≤ kMaxRequestLineBytes := by
    rw [hcut]
    simpa using hshort
  have hagrees := requestFramer.run_of_short hlines
  rw [requestFramer.turn_of_cut hcut (Nat.zero_le _), List.flatMap_singleton] at hagrees
  rw [serve_eq_run]
  exact Prod.ext (hagrees.state rfl) hagrees.reactions

/-! ### Written requests arrive as they were written -/

theorem getLast?_serializeJsonObject (object : JsonObject) :
    (serializeJsonObject object).getLast? = some rbrace := by
  rw [serializeJsonObject, List.getLast?_append]
  rfl

/-- A written object is handed on as the object it was written from. -/
theorem onLine_serializeJsonObject (object : JsonObject) :
    onLine (serializeJsonObject object) = [.dispatch (serializeJsonObject object) object] := by
  have hstrip : stripCarriageReturn (serializeJsonObject object) = serializeJsonObject object := by
    rw [stripCarriageReturn, getLast?_serializeJsonObject]
    exact if_neg (by decide)
  have hne : serializeJsonObject object ≠ [] := by simp [serializeJsonObject]
  rw [onLine, hstrip]
  show ite _ _ _ = _
  rw [if_neg hne, parse_serialize]

theorem newline_not_mem_serializeJsonObject (object : JsonObject) :
    newline ∉ serializeJsonObject object :=
  fun h => absurd (serializeJsonObject_visible object _ h) (by decide)

theorem cut_makeJsonLines (objects : List JsonObject) :
    cut newline (objects.map makeJsonLine).flatten = (objects.map serializeJsonObject, []) := by
  have hjoin : (objects.map makeJsonLine).flatten =
      join newline (objects.map serializeJsonObject) ++ [] := by
    rw [join, List.append_nil, List.flatMap_map, List.flatMap_def]
    rfl
  have hlines : ∀ line ∈ objects.map serializeJsonObject, newline ∉ line := by
    intro line hline
    obtain ⟨object, -, rfl⟩ := List.mem_map.mp hline
    exact newline_not_mem_serializeJsonObject object
  rw [hjoin, cut_join hlines]
  simp

/-- **Sticky and partial packets.**  Objects whose written lines are within the limit, sent one after
another and cut into reads in any way, are dispatched exactly as they are and in this order; nothing
else happens, the connection stays open and its buffer is empty at the end. -/
theorem serve_makeJsonLines (objects : List JsonObject)
    (hshort : ∀ object ∈ objects, (serializeJsonObject object).length ≤ kMaxRequestLineBytes)
    {reads : List Bytes} (hreads : reads.flatten = (objects.map makeJsonLine).flatten) :
    serve reads =
      (⟨[], false⟩,
        objects.map fun object => .dispatch (serializeJsonObject object) object) := by
  have hcut := cut_makeJsonLines objects
  have hlines : ∀ line ∈ (cut newline reads.flatten).1, line.length ≤ kMaxRequestLineBytes := by
    rw [hreads, hcut]
    intro line hline
    obtain ⟨object, hobject, rfl⟩ := List.mem_map.mp hline
    exact hshort object hobject
  have hagrees := requestFramer.run_of_short hlines
  have hturn : requestFramer.turn reads.flatten =
      (⟨[], false⟩,
        objects.map fun object => .dispatch (serializeJsonObject object) object) := by
    rw [hreads, requestFramer.turn_of_cut hcut (Nat.zero_le _), List.flatMap_map]
    simp only [requestFramer, onLine_serializeJsonObject, ← List.map_eq_flatMap]
  rw [hturn] at hagrees
  rw [serve_eq_run]
  exact Prod.ext (hagrees.state rfl) hagrees.reactions

theorem serve_makeJsonLines_cut_in_two :
    serve [(makeJsonLine {(ascii "type", ascii "users")}).take 7,
        (makeJsonLine {(ascii "type", ascii "users")}).drop 7 ++ makeJsonLine ∅] =
      (⟨[], false⟩,
        [.dispatch (serializeJsonObject {(ascii "type", ascii "users")})
            {(ascii "type", ascii "users")},
          .dispatch (serializeJsonObject ∅) ∅]) :=
  serve_makeJsonLines [{(ascii "type", ascii "users")}, ∅] (by decide +kernel)
    (by decide +kernel)

/-! ### When the cuts matter -/

def Reaction.request? : Reaction → Option JsonObject
  | .dispatch _ request => some request
  | _ => none

def Reaction.error? : Reaction → Option Bytes
  | .parseError _ error => some error
  | _ => none

/-- The requests handed on, in order. -/
def requestsOf (reactions : List Reaction) : List JsonObject := reactions.filterMap Reaction.request?

/-- The parse errors reported, in order. -/
def parseErrorsOf (reactions : List Reaction) : List Bytes := reactions.filterMap Reaction.error?

/-- The same requests, the same parse errors, the same decision about the line limit. -/
structure SameOutcome (x y : Inbound UInt8 × List Reaction) : Prop where
  requests : requestsOf x.2 = requestsOf y.2
  parseErrors : parseErrorsOf x.2 = parseErrorsOf y.2
  tooLarge : .tooLarge ∈ x.2 ↔ .tooLarge ∈ y.2
  closed : x.1.closed = y.1.closed

/-- Any two ways of cutting the stream have the same outcome, and no cutting lets a line beyond the
limit through. -/
def IndependentOfCuts (stream : Bytes) : Prop :=
  (∀ reads₁ reads₂ : List Bytes, reads₁.flatten = stream → reads₂.flatten = stream →
    SameOutcome (serve reads₁) (serve reads₂)) ∧
  ∀ reads : List Bytes, reads.flatten = stream →
    ∀ line request, .dispatch line request ∈ (serve reads).2 → line.length ≤ kMaxRequestLineBytes

/-- A line that is not empty is dispatched or answered with a parse error. -/
theorem onLine_of_ne_nil {line : Bytes} (h : stripCarriageReturn line ≠ []) :
    (∃ request, onLine line = [.dispatch (stripCarriageReturn line) request]) ∨
      ∃ error, onLine line = [.parseError (stripCarriageReturn line) error] := by
  have hsafe := parseJsonObject_within (stripCarriageReturn line)
  rw [onLine, if_neg h]
  cases hp : parseJsonObject (stripCarriageReturn line) with
  | ok request pos => exact .inl ⟨request, rfl⟩
  | error error pos => exact .inr ⟨error, rfl⟩
  | outOfRange =>
    rw [hp] at hsafe
    exact hsafe.elim
  | outOfFuel =>
    rw [hp] at hsafe
    exact hsafe.elim

theorem length_stripCarriageReturn (line : Bytes) :
    (stripCarriageReturn line).length ≤ line.length ∧
      line.length ≤ (stripCarriageReturn line).length + 1 := by
  rw [stripCarriageReturn]
  split_ifs
  · rw [List.length_dropLast]
    omega
  · omega

/-- What is dispatched is no longer than the line it was read from. -/
theorem length_of_dispatch {line sent : Bytes} {request : JsonObject}
    (h : .dispatch sent request ∈ onLine line) : sent.length ≤ line.length := by
  by_cases hne : stripCarriageReturn line = []
  · simp [onLine, hne] at h
  · rcases onLine_of_ne_nil hne with ⟨r, hr⟩ | ⟨e, he⟩
    · obtain ⟨rfl, -⟩ : sent = _ ∧ request = r := by simpa [hr] using h
      exact (length_stripCarriageReturn line).1
    · simp [he] at h

/-- Within the limit every line of the stream, and the cuts do not matter. -/
theorem independentOfCuts_of_short {stream : Bytes}
    (h : ∀ line ∈ (cut newline stream).1, line.length ≤ kMaxRequestLineBytes) :
    IndependentOfCuts stream := by
  have hagrees : ∀ reads : List Bytes, reads.flatten = stream →
      Framer.Agrees (serve reads) (requestFramer.turn stream) := by
    rintro reads rfl
    rw [serve_eq_run]
    exact requestFramer.run_of_short h
  constructor
  · intro reads₁ reads₂ h₁ h₂
    have a₁ := hagrees reads₁ h₁
    have a₂ := hagrees reads₂ h₂
    have hreactions := a₁.reactions.trans a₂.reactions.symm
    exact ⟨by rw [hreactions], by rw [hreactions], by rw [hreactions],
      a₁.closed.trans a₂.closed.symm⟩
  · intro reads hreads line request hdispatch
    rw [(hagrees reads hreads).reactions, Framer.turn] at hdispatch
    have hmem : .dispatch line request ∈ (cut newline stream).1.flatMap onLine := by
      split_ifs at hdispatch
      · simpa [requestFramer] using hdispatch
      · exact hdispatch
    obtain ⟨raw, hraw, hline⟩ := List.mem_flatMap.mp hmem
    exact (length_of_dispatch hline).trans (h raw hraw)

theorem serve_across {front : List Bytes} {line : Bytes} (back : Bytes) (hfront : ∀ l ∈ front, newline ∉ l)
    (hline : newline ∉ line) :
    (serve [join newline front ++ (line ++ newline :: back)]).2 =
      front.flatMap onLine ++ (onLine line ++ (requestFramer.turn back).2) := by
  rw [serve_eq_run]
  exact requestFramer.run_across hfront hline

theorem serve_cut_before {front : List Bytes} {line : Bytes} (back : Bytes)
    (hfront : ∀ l ∈ front, newline ∉ l) (hline : newline ∉ line)
    (hlong : kMaxRequestLineBytes < line.length) :
    serve [join newline front ++ line, newline :: back] =
      (⟨line, true⟩, front.flatMap onLine ++ [.tooLarge]) := by
  rw [serve_eq_run]
  exact requestFramer.run_cut_before hfront hline hlong

/-- A long line adds a request or a parse error when it is read to its newline at once, and none when
a cut falls right before the newline. -/
theorem not_sameOutcome_of_long {front : List Bytes} {line : Bytes} (back : Bytes)
    (hfront : ∀ l ∈ front, newline ∉ l) (hline : newline ∉ line)
    (hlong : kMaxRequestLineBytes < line.length) :
    ¬ SameOutcome (serve [join newline front ++ line, newline :: back])
      (serve [join newline front ++ (line ++ newline :: back)]) := by
  intro hsame
  have hrequests := congrArg List.length hsame.requests
  have herrors := congrArg List.length hsame.parseErrors
  rw [serve_across back hfront hline, serve_cut_before back hfront hline hlong] at hrequests herrors
  have hne : stripCarriageReturn line ≠ [] := by
    intro hnil
    have := (length_stripCarriageReturn line).2
    rw [hnil, List.length_nil] at this
    rw [kMaxRequestLineBytes] at hlong
    omega
  rcases onLine_of_ne_nil hne with ⟨request, hr⟩ | ⟨error, he⟩
  · rw [hr] at hrequests
    simp only [requestsOf, List.filterMap_append, List.length_append] at hrequests
    simp only [List.filterMap_cons, List.filterMap_nil, Reaction.request?, List.length_cons,
      List.length_nil] at hrequests
    omega
  · rw [he] at herrors
    simp only [parseErrorsOf, List.filterMap_append, List.length_append] at herrors
    simp only [List.filterMap_cons, List.filterMap_nil, Reaction.error?, List.length_cons,
      List.length_nil] at herrors
    omega

/-- **Exactly the short lines are safe from the cuts.**  The outcome is the same for all cuts, and no
line beyond the limit gets through, if and only if no newline-ended line of the stream is longer than
the limit: the limit is tested on what the loop leaves, never on the lines it takes. -/
theorem independentOfCuts_iff (stream : Bytes) :
    IndependentOfCuts stream ↔
      ∀ line ∈ (cut newline stream).1, line.length ≤ kMaxRequestLineBytes := by
  refine ⟨fun h line hline => ?_, independentOfCuts_of_short⟩
  by_contra hlong
  obtain ⟨front, back, hstream, hfront⟩ := exists_around hline
  refine not_sameOutcome_of_long back hfront (not_mem_line hline) (Nat.not_le.mp hlong) (h.1 _ _ ?_ ?_)
  · rw [hstream]
    simp
  · rw [hstream]
    simp

/-- The empty object, padded with spaces. -/
def paddedRequest (n : ℕ) : Bytes := lbrace :: List.replicate n space ++ [rbrace]

theorem newline_not_mem_paddedRequest (n : ℕ) : newline ∉ paddedRequest n := by
  simp [paddedRequest, lbrace, rbrace, newline, space, List.mem_replicate]

theorem length_paddedRequest (n : ℕ) : (paddedRequest n).length = n + 2 := by
  simp [paddedRequest]

/-- The padding is white space of the grammar, so the request is an object without members. -/
theorem onLine_paddedRequest (n : ℕ) :
    onLine (paddedRequest n) = [.dispatch (paddedRequest n) ∅] := by
  have hlast : (paddedRequest n).getLast? = some rbrace := by
    rw [paddedRequest, List.getLast?_append]
    rfl
  have hstrip : stripCarriageReturn (paddedRequest n) = paddedRequest n := by
    rw [stripCarriageReturn, hlast]
    exact if_neg (by decide)
  have hpadding : JsonGrammar.Ws (List.replicate n space) := by
    intro ch hch
    rw [List.eq_of_mem_replicate hch]
    decide
  have htext : JsonGrammar.Text (paddedRequest n) [] :=
    JsonGrammar.Text.empty JsonGrammar.Ws.nil hpadding JsonGrammar.Ws.nil
  have hne : paddedRequest n ≠ [] := by simp [paddedRequest]
  rw [onLine, hstrip]
  show ite _ _ _ = _
  rw [if_neg hne, parseJsonObject_complete htext]
  rfl

theorem serve_paddedRequest (n : ℕ) :
    (serve [paddedRequest n ++ [newline]]).2 = [.dispatch (paddedRequest n) ∅] := by
  have hnone : ∀ l ∈ ([] : List Bytes), newline ∉ l := by simp
  have := serve_across [] hnone (newline_not_mem_paddedRequest n)
  rwa [onLine_paddedRequest] at this

/-- Beyond the limit, a cut right before the newline has another outcome. -/
theorem serve_paddedRequest_cut {n : ℕ} (h : kMaxRequestLineBytes < n + 2) :
    serve [paddedRequest n, [newline]] = (⟨paddedRequest n, true⟩, [.tooLarge]) ∧
      ¬ IndependentOfCuts (paddedRequest n ++ [newline]) := by
  have hline := newline_not_mem_paddedRequest n
  have hlong : kMaxRequestLineBytes < (paddedRequest n).length := by rwa [length_paddedRequest]
  have hnone : ∀ l ∈ ([] : List Bytes), newline ∉ l := by simp
  have hcut := serve_cut_before [] hnone hline hlong
  have hdiffer := not_sameOutcome_of_long [] hnone hline hlong
  simp only [join, List.flatMap_nil, List.nil_append] at hcut hdiffer
  refine ⟨hcut, fun hcuts => hdiffer (hcuts.1 _ _ ?_ ?_)⟩
  · rw [List.flatten_cons, List.flatten_cons, List.flatten_nil, List.append_nil]
  · rw [List.flatten_cons, List.flatten_nil, List.append_nil]

/-- One read takes a whole line of 65537 bytes and dispatches it; a cut before its newline rejects
it. -/
theorem paddedRequest_depends_on_cuts :
    (serve [paddedRequest 65535 ++ [newline]]).2 = [.dispatch (paddedRequest 65535) ∅] ∧
      serve [paddedRequest 65535, [newline]] = (⟨paddedRequest 65535, true⟩, [.tooLarge]) ∧
      ¬ IndependentOfCuts (paddedRequest 65535 ++ [newline]) :=
  ⟨serve_paddedRequest 65535, serve_paddedRequest_cut (by decide)⟩

end ChatService
