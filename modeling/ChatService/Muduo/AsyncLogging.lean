import ChatService.Foundation.Bytes
import ChatService.Foundation.LabelledRuns
import Mathlib.Data.List.Flatten
import Mathlib.Tactic.SplitIfs

/-!
# The asynchronous log

muduo's `AsyncLogging`: any thread appends lines to a buffer, and a thread of its own takes all buffers over from time
to time and writes them to the log file.  Four buffers go round between them; when the writer does not keep up, most
of what has come in is dropped, and the log says so.

* `FixedBuffer` — a buffer of a fixed size.
* `AsyncLogging` — the buffers, with `append`, and `swap` and `write`, of which a turn of `threadFunc` consists; a
  function answers `none` where an assertion fails or a null pointer is followed.
* `LogStep` — what the writers and the log's thread do, in any order.
* `Logged` — the invariant: where each line is that has been appended.
* `lines_are_logged_in_order` — every line is written, waits, or was dropped along with others, in order.
-/

namespace ChatService.Muduo

def kLargeBuffer : ℕ := 4000 * 1000

/-- A buffer, with what has been put into it. -/
structure FixedBuffer (size : ℕ) where
  data : Bytes
  fits : data.length ≤ size

namespace FixedBuffer

variable {size : ℕ} (b : FixedBuffer size)

def avail : ℕ := size - b.data.length

/-- What does not fit is not put into the buffer. -/
def append (line : Bytes) : FixedBuffer size :=
  if h : line.length < b.avail then
    ⟨b.data ++ line, by
      rw [avail] at h
      rw [List.length_append]
      omega⟩
  else b

theorem data_append (line : Bytes) :
    (b.append line).data = if line.length < b.avail then b.data ++ line else b.data := by
  rw [append]
  split_ifs <;> rfl

/-- `reset`, and a new buffer. -/
def empty : FixedBuffer size := ⟨[], Nat.zero_le _⟩

end FixedBuffer

/-- What the log's thread hands over to the log file. -/
inductive Chunk where
  | lines (data : Bytes)
  /-- "Dropped log messages", and so many buffers. -/
  | dropped (buffers : ℕ)

/-- How far `threadFunc` has come. -/
inductive LogStage where
  | testing
  | locking
  | waiting
  | writing
  | finished
deriving DecidableEq

structure AsyncLogging where
  running : Bool
  currentBuffer : Option (FixedBuffer kLargeBuffer)
  nextBuffer : Option (FixedBuffer kLargeBuffer)
  buffers : List (FixedBuffer kLargeBuffer)
  stage : LogStage
  newBuffer1 : Option (FixedBuffer kLargeBuffer)
  newBuffer2 : Option (FixedBuffer kLargeBuffer)
  buffersToWrite : List (FixedBuffer kLargeBuffer)
  output : List Chunk

namespace AsyncLogging

/-- When `threadFunc` has made its buffers. -/
def initial : AsyncLogging := ⟨true, some .empty, some .empty, [], .testing, some .empty, some .empty, [], []⟩

/-- `append`, which holds the mutex. -/
def append (line : Bytes) (a : AsyncLogging) : Option AsyncLogging := do
  let current ← a.currentBuffer
  if line.length < current.avail then return { a with currentBuffer := some (current.append line) }
  else
    let fresh := a.nextBuffer.getD .empty
    return { a with
      buffers := a.buffers ++ [current]
      nextBuffer := none
      currentBuffer := some (fresh.append line) }

theorem stage_append {line : Bytes} {a a' : AsyncLogging} (h : a.append line = some a') : a'.stage = a.stage := by
  cases hcurrent : a.currentBuffer with
  | none => simp [append, hcurrent] at h
  | some current =>
    simp only [append, hcurrent, Option.bind_eq_bind, Option.bind_some] at h
    split_ifs at h
    · obtain rfl := Option.some.inj h
      rfl
    · obtain rfl := Option.some.inj h
      rfl

/-- The assertions at the beginning of a turn. -/
def Ready (a : AsyncLogging) : Prop :=
  (∃ b, a.newBuffer1 = some b ∧ b.data.length = 0) ∧ (∃ b, a.newBuffer2 = some b ∧ b.data.length = 0) ∧
    a.buffersToWrite = []

/-- What a turn of `threadFunc` does while it holds the mutex, when it has waited. -/
def swap (a : AsyncLogging) : Option AsyncLogging := do
  let current ← a.currentBuffer
  let toWrite := a.buffers ++ [current]
  match a.nextBuffer with
  | some next =>
    return { a with
      currentBuffer := a.newBuffer1
      nextBuffer := some next
      newBuffer1 := none
      buffersToWrite := toWrite
      buffers := a.buffersToWrite
      stage := .writing }
  | none =>
    return { a with
      currentBuffer := a.newBuffer1
      nextBuffer := a.newBuffer2
      newBuffer1 := none
      newBuffer2 := none
      buffersToWrite := toWrite
      buffers := a.buffersToWrite
      stage := .writing }

/-- `if (!newBuffer)`: the last of the buffers that have been written is used again. -/
def refill (newBuffer : Option (FixedBuffer kLargeBuffer)) (written : List (FixedBuffer kLargeBuffer)) :
    Option (Option (FixedBuffer kLargeBuffer) × List (FixedBuffer kLargeBuffer)) :=
  match newBuffer with
  | some b => some (some b, written)
  | none => do
    guard (written ≠ [])
    return (some .empty, written.dropLast)

/-- What a turn hands over to the log file. -/
def chunks (toWrite : List Bytes) : List Chunk :=
  if 25 < toWrite.length then .dropped (toWrite.length - 2) :: (toWrite.take 2).map .lines
  else toWrite.map .lines

/-- The rest of the turn. -/
def write (a : AsyncLogging) : Option AsyncLogging := do
  guard (a.buffersToWrite ≠ [])
  let kept := if 25 < a.buffersToWrite.length then a.buffersToWrite.take 2 else a.buffersToWrite
  let notice := if 25 < a.buffersToWrite.length then [Chunk.dropped (a.buffersToWrite.length - 2)] else []
  let output := a.output ++ notice ++ kept.map fun b => .lines b.data
  let written := if 2 < kept.length then kept.take 2 else kept
  let (newBuffer1, written) ← refill a.newBuffer1 written
  let (newBuffer2, _) ← refill a.newBuffer2 written
  return { a with
    newBuffer1 := newBuffer1
    newBuffer2 := newBuffer2
    buffersToWrite := []
    output := output
    stage := .testing }

end AsyncLogging

/-- A step, with the lines that are appended in it. -/
inductive LogStep : AsyncLogging → List Bytes → AsyncLogging → Prop where
  | append {a a' : AsyncLogging} (line : Bytes) : a.append line = some a' → LogStep a [line] a'
  | stop {a : AsyncLogging} : LogStep a [] { a with running := false }
  | begin {a : AsyncLogging} : a.stage = .testing → a.running = true → a.Ready →
      LogStep a [] { a with stage := .locking }
  | finish {a : AsyncLogging} : a.stage = .testing → a.running = false → LogStep a [] { a with stage := .finished }
  | wait {a : AsyncLogging} : a.stage = .locking → a.buffers = [] → LogStep a [] { a with stage := .waiting }
  | swap {a a' : AsyncLogging} : a.stage = .locking ∧ a.buffers ≠ [] ∨ a.stage = .waiting → a.swap = some a' →
      LogStep a [] a'
  | write {a a' : AsyncLogging} : a.stage = .writing → a.write = some a' → LogStep a [] a'

/-- Whatever may happen next can be done: no assertion fails, and no null pointer is followed. -/
structure AsyncLogging.Able (a : AsyncLogging) : Prop where
  append : ∀ line, (a.append line).isSome
  ready : a.stage = .testing → a.Ready
  swap : a.stage = .locking ∨ a.stage = .waiting → a.swap.isSome
  write : a.stage = .writing → a.write.isSome

/-! ### The invariant -/

/-- Lines that are not larger than a buffer; others never get into the log. -/
def fitting (lines : List Bytes) : List Bytes := lines.filter fun line => line.length < kLargeBuffer

/-- What the buffers contain that were taken over in one turn. -/
abbrev Batch := List (List Bytes)

/-- Where the lines are: in the batches that have been taken over, in full buffers, and in the current one. -/
structure Logged (lines : List Bytes) (taken : List Batch) (full : Batch) (last : List Bytes) (a : AsyncLogging) :
    Prop where
  lines : fitting lines = taken.flatten.flatten ++ full.flatten ++ last
  full : full.map List.flatten = a.buffers.map FixedBuffer.data
  current : ∃ current, a.currentBuffer = some current ∧ current.data = last.flatten
  next : ∀ b, a.nextBuffer = some b → b.data = []
  rolled : a.nextBuffer = none → a.buffers ≠ []
  resting : a.stage ≠ .writing → a.Ready ∧
    a.output = taken.flatMap fun batch => AsyncLogging.chunks (batch.map List.flatten)
  writing : a.stage = .writing → a.newBuffer1 = none ∧ (∀ b, a.newBuffer2 = some b → b.data.length = 0) ∧
    a.buffersToWrite ≠ [] ∧ (a.newBuffer2 = none → 2 ≤ a.buffersToWrite.length) ∧
    ∃ done batch, taken = done ++ [batch] ∧ batch.map List.flatten = a.buffersToWrite.map FixedBuffer.data ∧
      a.output = done.flatMap fun batch => AsyncLogging.chunks (batch.map List.flatten)

theorem fitting_append (lines lines' : List Bytes) : fitting (lines ++ lines') = fitting lines ++ fitting lines' :=
  List.filter_append ..

section Steps

variable {lines : List Bytes} {taken : List Batch} {full : Batch} {last : List Bytes} {a a' : AsyncLogging}

theorem logged_initial : Logged [] [] [] [] .initial := by
  refine ⟨rfl, rfl, ⟨_, rfl, rfl⟩, ?_, ?_, ?_, ?_⟩
  · intro b hb
    cases hb
    rfl
  · intro hnone
    cases hnone
  · exact fun _ => ⟨⟨⟨_, rfl, rfl⟩, ⟨_, rfl, rfl⟩, rfl⟩, rfl⟩
  · intro hwriting
    cases hwriting

/-- What an empty buffer contains when a line has been put into it. -/
theorem data_append_empty {b : FixedBuffer kLargeBuffer} (hb : b.data = []) (line : Bytes) :
    (b.append line).data = (fitting [line]).flatten := by
  rw [FixedBuffer.data_append, FixedBuffer.avail, hb]
  by_cases hfits : line.length < kLargeBuffer
  · simp [fitting, hfits]
  · simp [fitting, hfits]

theorem Logged.append (h : Logged lines taken full last a) {line : Bytes} (ha' : a.append line = some a') :
    ∃ full' last', Logged (lines ++ [line]) taken full' last' a' := by
  obtain ⟨current, hcurrent, hdata⟩ := h.current
  simp only [AsyncLogging.append, hcurrent, Option.bind_eq_bind, Option.bind_some] at ha'
  split_ifs at ha' with hroom
  · -- there is room in the current buffer
    obtain rfl := Option.some.inj ha'
    have hfits : line.length < kLargeBuffer := by
      rw [FixedBuffer.avail] at hroom
      omega
    refine ⟨full, last ++ [line], ?_, h.full, ⟨_, rfl, ?_⟩, h.next, h.rolled, h.resting, h.writing⟩
    · rw [fitting_append, h.lines]
      simp [fitting, hfits]
    · rw [FixedBuffer.data_append, if_pos hroom, hdata]
      simp
  · -- the current buffer is full
    obtain rfl := Option.some.inj ha'
    have hfresh : (a.nextBuffer.getD .empty).data = [] := by
      cases hnext : a.nextBuffer with
      | none => rfl
      | some b => exact h.next b hnext
    refine ⟨full ++ [last], fitting [line], ?_, ?_, ⟨_, rfl, data_append_empty hfresh line⟩, ?_, ?_, h.resting,
      h.writing⟩
    · rw [fitting_append, h.lines]
      simp
    · simp [h.full, hdata]
    · intro b hb
      cases hb
    · simp

theorem Logged.swap (h : Logged lines taken full last a) (hstage : a.stage ≠ .writing) (ha' : a.swap = some a') :
    Logged lines (taken ++ [full ++ [last]]) [] [] a' := by
  obtain ⟨current, hcurrent, hdata⟩ := h.current
  obtain ⟨⟨⟨b₁, hb₁, hempty₁⟩, ⟨b₂, hb₂, hempty₂⟩, htoWrite⟩, houtput⟩ := h.resting hstage
  have hlines : fitting lines = (taken ++ [full ++ [last]]).flatten.flatten ++ [].flatten ++ [] := by
    rw [h.lines]
    simp
  have hbatch : (full ++ [last]).map List.flatten = (a.buffers ++ [current]).map FixedBuffer.data := by
    simp [h.full, hdata]
  have hb₁' : b₁.data = ([] : List Bytes).flatten := List.length_eq_zero_iff.mp hempty₁
  simp only [AsyncLogging.swap, hcurrent, Option.bind_eq_bind, Option.bind_some] at ha'
  cases hnext : a.nextBuffer with
  | some next =>
    rw [hnext] at ha'
    obtain rfl := Option.some.inj ha'
    refine ⟨hlines, by simp [htoWrite], ⟨b₁, hb₁, hb₁'⟩, ?_, ?_, ?_, ?_⟩
    · intro b hb
      exact h.next b (hnext.trans hb)
    · intro hnone
      cases hnone
    · exact fun hresting => absurd rfl hresting
    · refine fun _ => ⟨rfl, ?_, by simp, ?_, taken, _, rfl, hbatch, houtput⟩
      · intro b hb
        obtain rfl := Option.some.inj (hb₂.symm.trans hb)
        exact hempty₂
      · intro hnone
        exact absurd (hb₂.symm.trans hnone) (by simp)
  | none =>
    rw [hnext] at ha'
    obtain rfl := Option.some.inj ha'
    refine ⟨hlines, by simp [htoWrite], ⟨b₁, hb₁, hb₁'⟩, ?_, ?_, ?_, ?_⟩
    · intro b hb
      obtain rfl := Option.some.inj (hb₂.symm.trans hb)
      exact List.length_eq_zero_iff.mp hempty₂
    · intro hnone
      exact absurd (hb₂.symm.trans hnone) (by simp)
    · exact fun hresting => absurd rfl hresting
    · refine fun _ => ⟨rfl, by simp, by simp, ?_, taken, _, rfl, hbatch, houtput⟩
      -- a buffer has been filled since the spare one was taken
      intro _
      have hpos := List.length_pos_iff.mpr (h.rolled hnext)
      rw [List.length_append, List.length_singleton]
      omega

/-- What the file gets in a turn. -/
theorem output_eq (toWrite : List (FixedBuffer kLargeBuffer)) :
    (if 25 < toWrite.length then [Chunk.dropped (toWrite.length - 2)] else []) ++
      (if 25 < toWrite.length then toWrite.take 2 else toWrite).map (fun b => Chunk.lines b.data) =
        AsyncLogging.chunks (toWrite.map FixedBuffer.data) := by
  rw [AsyncLogging.chunks, List.length_map]
  split_ifs
  · simp [List.map_take, Function.comp_def]
  · simp [Function.comp_def]

theorem Logged.write_eq (h : Logged lines taken full last a) (hstage : a.stage = .writing) :
    ∃ b₁ b₂ : FixedBuffer kLargeBuffer, b₁.data.length = 0 ∧ b₂.data.length = 0 ∧
      a.write = some { a with
        newBuffer1 := some b₁
        newBuffer2 := some b₂
        buffersToWrite := []
        output := a.output ++ AsyncLogging.chunks (a.buffersToWrite.map FixedBuffer.data)
        stage := .testing } := by
  obtain ⟨hb₁, hb₂, htoWrite, htwo, -⟩ := h.writing hstage
  have hpos := List.length_pos_iff.mpr htoWrite
  generalize hkept : (if 25 < a.buffersToWrite.length then a.buffersToWrite.take 2 else a.buffersToWrite) = kept
  generalize hwritten : (if 2 < kept.length then kept.take 2 else kept) = written
  -- as many buffers are left as are needed
  have hlength : min 2 a.buffersToWrite.length = written.length := by
    have hkeptLength : min 2 a.buffersToWrite.length = min 2 kept.length := by
      rw [← hkept]
      split_ifs
      · rw [List.length_take]
        omega
      · rfl
    rw [hkeptLength, ← hwritten]
    split_ifs
    · rw [List.length_take]
    · omega
  have hnonempty : written ≠ [] := by
    rw [← List.length_pos_iff]
    omega
  have hrefill₁ : AsyncLogging.refill a.newBuffer1 written = some (some .empty, written.dropLast) := by
    simp [hb₁, AsyncLogging.refill, guard, hnonempty]
  have hoffered : ∃ b rest, b.data.length = 0 ∧
      AsyncLogging.refill a.newBuffer2 written.dropLast = some (some b, rest) := by
    cases hnew : a.newBuffer2 with
    | some b => exact ⟨b, _, hb₂ b hnew, rfl⟩
    | none =>
      have hleft : written.dropLast ≠ [] := by
        rw [← List.length_pos_iff, List.length_dropLast]
        have hmany := htwo hnew
        omega
      exact ⟨.empty, written.dropLast.dropLast, rfl, by simp [AsyncLogging.refill, guard, hleft]⟩
  obtain ⟨b₂, rest, hempty, hrefill₂⟩ := hoffered
  refine ⟨.empty, b₂, rfl, hempty, ?_⟩
  rw [← output_eq, hkept]
  simp only [AsyncLogging.write, guard, htoWrite, ne_eq, not_false_eq_true, if_true, hkept, hwritten]
  simp [hrefill₁, hrefill₂]

theorem Logged.write (h : Logged lines taken full last a) (hstage : a.stage = .writing) (ha' : a.write = some a') :
    Logged lines taken full last a' := by
  obtain ⟨b₁, b₂, hempty₁, hempty₂, hwrite⟩ := h.write_eq hstage
  obtain rfl := Option.some.inj (hwrite.symm.trans ha')
  obtain ⟨-, -, -, -, done, batch, rfl, hbatch, houtput⟩ := h.writing hstage
  refine ⟨h.lines, h.full, h.current, h.next, h.rolled, ?_, ?_⟩
  · refine fun _ => ⟨⟨⟨b₁, rfl, hempty₁⟩, ⟨b₂, rfl, hempty₂⟩, rfl⟩, ?_⟩
    rw [List.flatMap_append, ← houtput]
    simp [hbatch]
  · intro hwriting
    cases hwriting

/-- Every step keeps track of the lines. -/
theorem Logged.step (h : Logged lines taken full last a) {new : List Bytes} (hstep : LogStep a new a') :
    ∃ taken' full' last', taken <+: taken' ∧ Logged (lines ++ new) taken' full' last' a' := by
  cases hstep with
  | append line ha' =>
    obtain ⟨full', last', h'⟩ := h.append ha'
    exact ⟨taken, full', last', List.prefix_rfl, h'⟩
  | stop =>
    refine ⟨taken, full, last, List.prefix_rfl, ?_⟩
    rw [List.append_nil]
    exact ⟨h.lines, h.full, h.current, h.next, h.rolled, h.resting, h.writing⟩
  | begin hstage hrunning hready =>
    refine ⟨taken, full, last, List.prefix_rfl, ?_⟩
    rw [List.append_nil]
    exact ⟨h.lines, h.full, h.current, h.next, h.rolled, fun _ => h.resting (by simp [hstage]), by simp⟩
  | finish hstage hrunning =>
    refine ⟨taken, full, last, List.prefix_rfl, ?_⟩
    rw [List.append_nil]
    exact ⟨h.lines, h.full, h.current, h.next, h.rolled, fun _ => h.resting (by simp [hstage]), by simp⟩
  | wait hstage hempty =>
    refine ⟨taken, full, last, List.prefix_rfl, ?_⟩
    rw [List.append_nil]
    exact ⟨h.lines, h.full, h.current, h.next, h.rolled, fun _ => h.resting (by simp [hstage]), by simp⟩
  | swap hstage ha' =>
    have hresting : a.stage ≠ .writing := by
      rcases hstage with hstage | hstage
      · simp [hstage.1]
      · simp [hstage]
    refine ⟨taken ++ [full ++ [last]], [], [], List.prefix_append _ _, ?_⟩
    rw [List.append_nil]
    exact h.swap hresting ha'
  | write hstage ha' =>
    refine ⟨taken, full, last, List.prefix_rfl, ?_⟩
    rw [List.append_nil]
    exact h.write hstage ha'

theorem Logged.able (h : Logged lines taken full last a) : a.Able := by
  obtain ⟨current, hcurrent, -⟩ := h.current
  refine ⟨fun line => ?_, fun hstage => (h.resting (by simp [hstage])).1, fun _ => ?_, fun hstage => ?_⟩
  · simp only [AsyncLogging.append, hcurrent, Option.bind_eq_bind, Option.bind_some]
    split_ifs <;> rfl
  · simp only [AsyncLogging.swap, hcurrent, Option.bind_eq_bind, Option.bind_some]
    cases a.nextBuffer <;> rfl
  · obtain ⟨b₁, b₂, -, -, hwrite⟩ := h.write_eq hstage
    rw [hwrite]
    rfl

/-! ### Runs -/

theorem Logged.run {new : List Bytes} (h : Logged lines taken full last a) (hrun : LabelledRuns.Run LogStep a new a') :
    ∃ taken' full' last', taken <+: taken' ∧ Logged (lines ++ new) taken' full' last' a' := by
  induction hrun generalizing lines taken full last with
  | refl a => exact ⟨taken, full, last, List.prefix_rfl, by rwa [List.append_nil]⟩
  | @step a₁ a₂ a₃ l l' hstep _ ih =>
    obtain ⟨taken₂, full₂, last₂, hprefix₂, h₂⟩ := h.step hstep
    obtain ⟨taken₃, full₃, last₃, hprefix₃, h₃⟩ := ih h₂
    rw [List.append_assoc] at h₃
    exact ⟨taken₃, full₃, last₃, hprefix₂.trans hprefix₃, h₃⟩

/-- By the time the log's thread has left the turn that it is in, it has taken over what had been appended. -/
theorem Logged.turn {new : List Bytes} (h : Logged lines taken full last a)
    (hstage : a.stage = .locking ∨ a.stage = .waiting) (hrun : LabelledRuns.Run LogStep a new a')
    (hstage' : a'.stage = .testing) :
    ∃ taken' full' last', fitting lines <+: taken'.flatten.flatten ∧ Logged (lines ++ new) taken' full' last' a' := by
  induction hrun generalizing lines taken full last with
  | refl a => simp [hstage'] at hstage
  | @step a₁ a₂ a₃ l l' hstep hrest ih =>
    have hgoOn : ∀ {full₂ : Batch} {last₂ : List Bytes}, (a₂.stage = .locking ∨ a₂.stage = .waiting) →
        Logged (lines ++ l) taken full₂ last₂ a₂ → ∃ taken' full' last',
          fitting lines <+: taken'.flatten.flatten ∧ Logged (lines ++ (l ++ l')) taken' full' last' a₃ := by
      intro full₂ last₂ hstage₂ h₂
      obtain ⟨taken', full', last', hprefix, h'⟩ := ih h₂ hstage₂ hstage'
      rw [fitting_append] at hprefix
      rw [List.append_assoc] at h'
      exact ⟨taken', full', last', (List.prefix_append _ _).trans hprefix, h'⟩
    cases hstep with
    | append line ha' =>
      obtain ⟨full₂, last₂, h₂⟩ := h.append ha'
      exact hgoOn (by rwa [AsyncLogging.stage_append ha']) h₂
    | stop =>
      refine hgoOn hstage (?_ : Logged _ _ full last _)
      rw [List.append_nil]
      exact ⟨h.lines, h.full, h.current, h.next, h.rolled, h.resting, h.writing⟩
    | begin hbegin hrunning hready => simp [hbegin] at hstage
    | finish hfinish hrunning => simp [hfinish] at hstage
    | wait hwait hempty =>
      refine hgoOn (.inr rfl) (?_ : Logged _ _ full last _)
      rw [List.append_nil]
      exact ⟨h.lines, h.full, h.current, h.next, h.rolled, fun _ => h.resting (by simp [hwait]), by simp⟩
    | swap hswap ha' =>
      -- everything is taken over here
      have h₂ := h.swap (by rcases hstage with hstage | hstage <;> simp [hstage]) ha'
      obtain ⟨taken', full', last', ⟨rest, rfl⟩, h'⟩ := h₂.run hrest
      refine ⟨_, full', last', ?_, h'⟩
      rw [h₂.lines]
      simp
    | write hwrite ha' => simp [hwrite] at hstage

/-- **Lines are logged in order.**  In every run, whatever threads append and however they and the log's thread
interleave: no assertion fails; the lines that fit into a buffer at all are those of the batches that the log's thread
has taken over, then those in the full buffers, then those in the current one, in the order in which they were
appended; the file holds the batches in order, each in full or, if it is of more than 25 buffers, the first two of it
and a notice of how many were dropped; and at the end of a turn the batches hold whatever had been appended before it
began. -/
theorem lines_are_logged_in_order (hrun : LabelledRuns.Run LogStep .initial lines a) :
    a.Able ∧
      (∃ (taken : List Batch) (full : Batch) (last : List Bytes),
        fitting lines = taken.flatten.flatten ++ full.flatten ++ last ∧
        full.map List.flatten = a.buffers.map FixedBuffer.data ∧
        (∃ current, a.currentBuffer = some current ∧ current.data = last.flatten) ∧
        (a.stage ≠ .writing →
          a.output = taken.flatMap fun batch => AsyncLogging.chunks (batch.map List.flatten))) ∧
      ∀ new a', (a.stage = .locking ∨ a.stage = .waiting) → LabelledRuns.Run LogStep a new a' → a'.stage = .testing →
        ∃ taken : List Batch, fitting lines <+: taken.flatten.flatten ∧
          taken.flatten.flatten <+: fitting (lines ++ new) ∧
          a'.output = taken.flatMap fun batch => AsyncLogging.chunks (batch.map List.flatten) := by
  obtain ⟨taken, full, last, -, h⟩ := logged_initial.run hrun
  rw [List.nil_append] at h
  refine ⟨h.able, ⟨taken, full, last, h.lines, h.full, h.current, fun hstage => (h.resting hstage).2⟩, ?_⟩
  intro new a' hstage hturn hstage'
  obtain ⟨taken', full', last', hprefix, h'⟩ := h.turn hstage hturn hstage'
  refine ⟨taken', hprefix, ?_, (h'.resting (by simp [hstage'])).2⟩
  rw [h'.lines, List.append_assoc]
  exact List.prefix_append _ _

/-- A line is in the current buffer, and the log's thread waits. -/
def helloWaits : AsyncLogging :=
  { AsyncLogging.initial with
    currentBuffer := some (FixedBuffer.empty.append (ascii "hello"))
    stage := .waiting }

/-- The line is in the file by the end of the turn. -/
theorem hello_is_logged :
    LabelledRuns.Run LogStep .initial [ascii "hello"] helloWaits ∧
      ∃ a, LabelledRuns.Run LogStep helloWaits [] a ∧ ∃ taken : List Batch,
        fitting [ascii "hello"] <+: taken.flatten.flatten ∧
        a.output = taken.flatMap fun batch => AsyncLogging.chunks (batch.map List.flatten) := by
  have happend : LogStep .initial [ascii "hello"] _ := .append (ascii "hello") rfl
  have hready : AsyncLogging.initial.Ready := ⟨⟨_, rfl, rfl⟩, ⟨_, rfl, rfl⟩, rfl⟩
  have hwaiting : LabelledRuns.Run LogStep .initial [ascii "hello"] helloWaits :=
    ((LabelledRuns.Run.single happend).trans (.single (.begin rfl rfl hready))).trans (.single (.wait rfl rfl))
  have hswap : LogStep helloWaits [] _ := .swap (.inr rfl) rfl
  have hturn := (LabelledRuns.Run.single hswap).trans (.single (.write rfl rfl))
  obtain ⟨taken, htaken, -, houtput⟩ := (lines_are_logged_in_order hwaiting).2.2 _ _ (.inr rfl) hturn rfl
  exact ⟨hwaiting, _, hturn, taken, htaken, houtput⟩

end Steps

end ChatService.Muduo
