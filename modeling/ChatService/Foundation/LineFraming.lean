import Mathlib.Data.List.Basic
import Mathlib.Tactic.SplitIfs

/-!
# Delimited lines in a stream that arrives in pieces

A stream is a list over any alphabet, a delimiter closes its lines, and it arrives cut into *reads*
at arbitrary places.  A `Framer` keeps what it has not consumed yet, and after every read

* reacts to each line that is now complete, in order, and forgets it;
* then, if what is left is longer than its limit, reports the overflow and stops for good.

Two facts carry everything that is said about such a framer.

* **`Framer.run_of_short`** — if every closed line of the stream is within the limit, then the cuts do
  not matter: the reactions are those to the lines of the stream, and the overflow is reported exactly
  when the unfinished rest is too long.
* **`Framer.run_cut_before`, `Framer.run_across`** — a closed line beyond the limit is reacted to or
  not, depending on whether a cut falls right before its delimiter.
-/

namespace LineFraming

variable {α β : Type}

section Cut

variable [DecidableEq α] {d : α}

/-- The lines of a list that the delimiter closes, and the rest behind the last delimiter. -/
def cut (d : α) : List α → List (List α) × List α
  | [] => ([], [])
  | b :: bs =>
    if b = d then ([] :: (cut d bs).1, (cut d bs).2)
    else
      match (cut d bs).1 with
      | [] => ([], b :: (cut d bs).2)
      | line :: lines => ((b :: line) :: lines, (cut d bs).2)

@[simp] theorem cut_nil : cut d [] = ([], []) := rfl

@[simp] theorem cut_delimiter (bs : List α) :
    cut d (d :: bs) = ([] :: (cut d bs).1, (cut d bs).2) := by
  rw [cut, if_pos rfl]

/-- Bytes without a delimiter go to the front of the first line, or of the rest. -/
theorem cut_append_of_not_mem {v : List α} (hv : d ∉ v) (bs : List α) :
    cut d (v ++ bs) =
      match (cut d bs).1 with
      | [] => ([], v ++ (cut d bs).2)
      | line :: lines => ((v ++ line) :: lines, (cut d bs).2) := by
  induction v with
  | nil =>
    rw [List.nil_append]
    cases hc : cut d bs with
    | mk lines rest => cases lines <;> rfl
  | cons b v ih =>
    have hb : b ≠ d := fun h => hv (by simp [h])
    have hv' : d ∉ v := fun h => hv (by simp [h])
    rw [List.cons_append, cut, if_neg hb, ih hv']
    cases (cut d bs).1 <;> rfl

/-- They stand in front of a line, or of the rest. -/
theorem prefix_of_not_mem {v : List α} (hv : d ∉ v) (bs : List α) :
    (∃ line ∈ (cut d (v ++ bs)).1, v <+: line) ∨ v <+: (cut d (v ++ bs)).2 := by
  rw [cut_append_of_not_mem hv]
  cases (cut d bs).1 with
  | nil => exact .inr (List.prefix_append v _)
  | cons line lines => exact .inl ⟨v ++ line, List.mem_cons_self, List.prefix_append v line⟩

/-- A text without a delimiter has no closed line. -/
theorem cut_of_not_mem {v : List α} (hv : d ∉ v) : cut d v = ([], v) := by
  have h := cut_append_of_not_mem hv []
  rwa [List.append_nil, cut_nil, List.append_nil] at h

/-- A closed line is split off in front. -/
theorem cut_line {v : List α} (hv : d ∉ v) (bs : List α) :
    cut d (v ++ d :: bs) = (v :: (cut d bs).1, (cut d bs).2) := by
  rw [cut_append_of_not_mem hv, cut_delimiter]
  simp

/-- The rest has no delimiter. -/
theorem not_mem_rest (bs : List α) : d ∉ (cut d bs).2 := by
  induction bs with
  | nil => simp
  | cons b bs ih =>
    rw [cut]
    split_ifs with hb
    · exact ih
    · cases (cut d bs).1 with
      | nil => simpa [Ne.symm hb] using ih
      | cons line lines => exact ih

/-- No closed line has a delimiter. -/
theorem not_mem_line {bs line : List α} (h : line ∈ (cut d bs).1) : d ∉ line := by
  induction bs generalizing line with
  | nil => exact absurd h (by simp)
  | cons b bs ih =>
    rw [cut] at h
    split_ifs at h with hb
    · rcases List.mem_cons.mp h with rfl | h
      · simp
      · exact ih h
    · cases hc : (cut d bs).1 with
      | nil => simp [hc] at h
      | cons first lines =>
        rw [hc] at h ih
        rcases List.mem_cons.mp h with rfl | h
        · simpa [Ne.symm hb] using ih (List.mem_cons_self ..)
        · exact ih (List.mem_cons_of_mem _ h)

/-- **Cutting is incremental.**  Cutting a longer text is cutting its front, and then the rest of
the front with what follows. -/
theorem cut_append (as bs : List α) :
    cut d (as ++ bs) =
      ((cut d as).1 ++ (cut d ((cut d as).2 ++ bs)).1, (cut d ((cut d as).2 ++ bs)).2) := by
  induction as with
  | nil => simp
  | cons a as ih =>
    by_cases ha : a = d
    · subst ha
      rw [List.cons_append, cut_delimiter, cut_delimiter, ih]
      rfl
    · rw [List.cons_append, cut, if_neg ha, ih, cut, if_neg ha]
      cases hc : (cut d as).1 with
      | nil =>
        show _ = (([] : List (List α)) ++ (cut d (a :: ((cut d as).2 ++ bs))).1,
          (cut d (a :: ((cut d as).2 ++ bs))).2)
        rw [cut, if_neg ha, List.nil_append, List.nil_append]
      | cons line lines => rfl

/-- Where the delimiter is searched for and not found, there is none; … -/
theorem not_mem_of_findIdx? {bs : List α} (h : bs.findIdx? (· == d) = none) : d ∉ bs := by
  intro hmem
  have := List.findIdx?_eq_none_iff.mp h d hmem
  simp at this

/-- … and where it is found, the first line ends. -/
theorem split_of_findIdx? {bs : List α} {i : ℕ} (h : bs.findIdx? (· == d) = some i) :
    d ∉ bs.take i ∧ bs = bs.take i ++ d :: bs.drop (i + 1) := by
  obtain ⟨hlt, hat, hbefore⟩ := List.findIdx?_eq_some_iff_getElem.mp h
  refine ⟨fun hmem => ?_, ?_⟩
  · obtain ⟨j, hj, hget⟩ := List.mem_take_iff_getElem.mp hmem
    have := hbefore j (by omega)
    simp [hget] at this
  · have hd : bs[i] = d := by simpa using hat
    rw [← hd, ← List.drop_eq_getElem_cons hlt, List.take_append_drop]

/-- The text whose closed lines are `lines`. -/
def join (d : α) (lines : List (List α)) : List α := lines.flatMap (· ++ [d])

omit [DecidableEq α] in
theorem join_cons (line : List α) (lines : List (List α)) :
    join d (line :: lines) = line ++ d :: join d lines := by
  simp [join]

theorem cut_join {lines : List (List α)} (h : ∀ line ∈ lines, d ∉ line) (bs : List α) :
    cut d (join d lines ++ bs) = (lines ++ (cut d bs).1, (cut d bs).2) := by
  induction lines with
  | nil => simp [join]
  | cons line lines ih =>
    rw [join_cons, List.append_assoc, List.cons_append, cut_line (h line (by simp)),
      ih fun l hl => h l (by simp [hl])]
    rfl

/-- Nothing of the text is lost by cutting it. -/
theorem join_cut (bs : List α) : join d (cut d bs).1 ++ (cut d bs).2 = bs := by
  induction bs with
  | nil => rfl
  | cons b bs ih =>
    rw [cut]
    split_ifs with hb
    · rw [join_cons, hb]
      simpa using ih
    · cases hc : (cut d bs).1 with
      | nil =>
        rw [hc] at ih
        show b :: (cut d bs).2 = b :: bs
        exact congrArg (b :: ·) ih
      | cons line lines =>
        rw [hc, join_cons] at ih
        show join d ((b :: line) :: lines) ++ (cut d bs).2 = b :: bs
        rw [join_cons, List.cons_append, List.cons_append, ih]

/-- A closed line, and what stands around it: whole lines in front, its delimiter behind. -/
theorem exists_around {bs line : List α} (h : line ∈ (cut d bs).1) :
    ∃ front back, bs = join d front ++ (line ++ d :: back) ∧ ∀ l ∈ front, d ∉ l := by
  obtain ⟨front, behind, hlines⟩ := List.append_of_mem h
  refine ⟨front, join d behind ++ (cut d bs).2, ?_, ?_⟩
  · calc bs = join d (cut d bs).1 ++ (cut d bs).2 := (join_cut bs).symm
      _ = join d (front ++ line :: behind) ++ (cut d bs).2 := by rw [hlines]
      _ = _ := by simp only [join, List.flatMap_append, List.flatMap_cons, List.append_assoc,
          List.cons_append, List.nil_append]
  · intro l hl
    have hmem : l ∈ (cut d bs).1 := by
      rw [hlines]
      exact List.mem_append_left _ hl
    exact not_mem_line hmem

end Cut

/-! ### Framers -/

/-- What a framer closes lines with, how much it tolerates of an unfinished line, how it reacts to a
line, and how it reports an overflow. -/
structure Framer (α β : Type) where
  delimiter : α
  limit : ℕ
  react : List α → List β
  overflow : β

/-- What a framer remembers between two reads. -/
structure Inbound (α : Type) where
  pending : List α
  closed : Bool
deriving DecidableEq, Repr

namespace Framer

variable [DecidableEq α] (F : Framer α β)

/-- One turn: react to the closed lines of what is pending, then test what is left. -/
def turn (pending : List α) : Inbound α × List β :=
  let rest := (cut F.delimiter pending).2
  let reactions := (cut F.delimiter pending).1.flatMap F.react
  if F.limit < rest.length then (⟨rest, true⟩, reactions ++ [F.overflow])
  else (⟨rest, false⟩, reactions)

/-- One read.  A closed framer gets no reads any more. -/
def receive (state : Inbound α) (read : List α) : Inbound α × List β :=
  if state.closed then (state, []) else F.turn (state.pending ++ read)

/-- A sequence of reads. -/
def receiveAll (state : Inbound α) : List (List α) → Inbound α × List β
  | [] => (state, [])
  | read :: reads =>
    let first := F.receive state read
    let later := receiveAll first.1 reads
    (later.1, first.2 ++ later.2)

theorem receiveAll_of_closed {state : Inbound α} (h : state.closed = true) (reads : List (List α)) :
    F.receiveAll state reads = (state, []) := by
  induction reads with
  | nil => rfl
  | cons read reads ih => simp [receiveAll, receive, h, ih]

theorem receiveAll_cons_open (pending read : List α) (reads : List (List α)) :
    F.receiveAll ⟨pending, false⟩ (read :: reads) =
      ((F.receiveAll (F.turn (pending ++ read)).1 reads).1,
        (F.turn (pending ++ read)).2 ++ (F.receiveAll (F.turn (pending ++ read)).1 reads).2) := rfl

/-- A turn whose rest the limit tolerates leaves the framer open. -/
theorem turn_of_cut {stream rest : List α} {lines : List (List α)}
    (h : cut F.delimiter stream = (lines, rest)) (hl : rest.length ≤ F.limit) :
    F.turn stream = (⟨rest, false⟩, lines.flatMap F.react) := by
  rw [turn, h]
  exact if_neg (Nat.not_lt.mpr hl)

/-- A turn whose rest is too long reports the overflow and closes. -/
theorem turn_of_cut_overflow {stream rest : List α} {lines : List (List α)}
    (h : cut F.delimiter stream = (lines, rest)) (hl : F.limit < rest.length) :
    F.turn stream = (⟨rest, true⟩, lines.flatMap F.react ++ [F.overflow]) := by
  rw [turn, h]
  exact if_pos hl

/-- The closed lines in front of a stream are reacted to first; the turn goes on with the rest. -/
theorem turn_append (as bs : List α) :
    F.turn (as ++ bs) =
      ((F.turn ((cut F.delimiter as).2 ++ bs)).1,
        (cut F.delimiter as).1.flatMap F.react ++ (F.turn ((cut F.delimiter as).2 ++ bs)).2) := by
  simp only [turn, cut_append as bs, List.flatMap_append]
  split_ifs <;> simp

/-- What is already too long for the limit stays an unfinished line, when no closed line of the
stream is too long. -/
theorem turn_of_overlong {rest bs : List α} (h : F.delimiter ∉ rest) (hl : F.limit < rest.length)
    (hshort : ∀ line ∈ (cut F.delimiter (rest ++ bs)).1, line.length ≤ F.limit) :
    (F.turn (rest ++ bs)).1.closed = true ∧ (F.turn (rest ++ bs)).2 = [F.overflow] := by
  rw [cut_append_of_not_mem h] at hshort
  cases hc : (cut F.delimiter bs).1 with
  | nil =>
    have hcut : cut F.delimiter (rest ++ bs) = ([], rest ++ (cut F.delimiter bs).2) := by
      rw [cut_append_of_not_mem h, hc]
    have hlong : F.limit < (rest ++ (cut F.delimiter bs).2).length := by
      rw [List.length_append]
      omega
    rw [F.turn_of_cut_overflow hcut hlong]
    exact ⟨rfl, rfl⟩
  | cons line lines =>
    rw [hc] at hshort
    have := hshort (rest ++ line) (List.mem_cons_self ..)
    rw [List.length_append] at this
    omega

/-- Two runs that cannot be told apart: the same reactions, both stopped or both open, and open with
the same rest. -/
structure Agrees (x y : Inbound α × List β) : Prop where
  reactions : x.2 = y.2
  closed : x.1.closed = y.1.closed
  state : y.1.closed = false → x.1 = y.1

/-- **Short lines make the cuts invisible.**  When every closed line of the stream is within the
limit, reading it in pieces is one turn on the whole stream. -/
theorem receiveAll_of_short {reads : List (List α)} {pending : List α}
    (hp : F.delimiter ∉ pending) (hl : pending.length ≤ F.limit)
    (hshort : ∀ line ∈ (cut F.delimiter (pending ++ reads.flatten)).1, line.length ≤ F.limit) :
    Agrees (F.receiveAll ⟨pending, false⟩ reads) (F.turn (pending ++ reads.flatten)) := by
  induction reads generalizing pending with
  | nil =>
    rw [List.flatten_nil, List.append_nil, F.turn_of_cut (cut_of_not_mem hp) hl]
    exact ⟨rfl, rfl, fun _ => rfl⟩
  | cons read reads ih =>
    -- `rest` is what the first turn leaves behind
    rw [List.flatten_cons, ← List.append_assoc] at hshort ⊢
    rw [receiveAll_cons_open]
    have hrest := not_mem_rest (d := F.delimiter) (pending ++ read)
    have hlines : ∀ line ∈ (cut F.delimiter ((cut F.delimiter (pending ++ read)).2 ++
        reads.flatten)).1, line.length ≤ F.limit := by
      intro line hline
      refine hshort line ?_
      rw [cut_append]
      exact List.mem_append_right _ hline
    rw [F.turn_append (pending ++ read)]
    by_cases hlong : F.limit < (cut F.delimiter (pending ++ read)).2.length
    · -- the unfinished line is the last one of the stream, so stopping now loses nothing
      obtain ⟨hclosed, hover⟩ := F.turn_of_overlong hrest hlong hlines
      rw [turn, if_pos hlong, F.receiveAll_of_closed rfl, hover]
      refine ⟨by simp, hclosed.symm, fun h => ?_⟩
      exact absurd (hclosed.symm.trans h) (by decide)
    · have hlater := ih hrest (Nat.not_lt.mp hlong) hlines
      rw [turn, if_neg hlong]
      exact ⟨congrArg (_ ++ ·) hlater.reactions, hlater.closed, hlater.state⟩

/-- What a new framer, with nothing pending, makes of a stream cut into reads. -/
def run (reads : List (List α)) : Inbound α × List β := F.receiveAll ⟨[], false⟩ reads

theorem run_of_short {reads : List (List α)}
    (hshort : ∀ line ∈ (cut F.delimiter reads.flatten).1, line.length ≤ F.limit) :
    Agrees (F.run reads) (F.turn reads.flatten) := by
  have hnone : F.delimiter ∉ ([] : List α) := by simp
  exact F.receiveAll_of_short hnone (Nat.zero_le _) hshort

/-- However a stream of lines within the limit is cut, the framer reacts to each of them and keeps nothing. -/
theorem run_join {lines reads : List (List α)} (hlines : ∀ line ∈ lines, F.delimiter ∉ line)
    (hshort : ∀ line ∈ lines, line.length ≤ F.limit) (hreads : reads.flatten = join F.delimiter lines) :
    F.run reads = (⟨[], false⟩, lines.flatMap F.react) := by
  have hcut : cut F.delimiter reads.flatten = (lines, []) := by
    rw [hreads, ← List.append_nil (join _ _), cut_join hlines]
    simp
  have hagrees : Agrees (F.run reads) (F.turn reads.flatten) := F.run_of_short (by rwa [hcut])
  have hturn := F.turn_of_cut hcut (Nat.zero_le _)
  rw [hturn] at hagrees
  exact Prod.ext (hagrees.state rfl) hagrees.reactions

/-- The whole stream in one read is one turn. -/
theorem run_single (stream : List α) : F.run [stream] = F.turn stream := by
  simp [run, receiveAll, receive]

/-- **A cut right before the delimiter of a long line stops the framer there**: it has reacted to
the lines in front of that line, and reports the overflow. -/
theorem run_cut_before {front : List (List α)} {line back : List α}
    (hfront : ∀ l ∈ front, F.delimiter ∉ l) (hline : F.delimiter ∉ line)
    (hlong : F.limit < line.length) :
    F.run [join F.delimiter front ++ line, F.delimiter :: back] =
      (⟨line, true⟩, front.flatMap F.react ++ [F.overflow]) := by
  have hcut : cut F.delimiter (join F.delimiter front ++ line) = (front, line) := by
    rw [cut_join hfront, cut_of_not_mem hline, List.append_nil]
  rw [run, receiveAll_cons_open, List.nil_append, F.turn_of_cut_overflow hcut hlong,
    F.receiveAll_of_closed rfl, List.append_nil]

/-- The whole stream in one read reacts to that line, and goes on. -/
theorem run_across {front : List (List α)} {line back : List α}
    (hfront : ∀ l ∈ front, F.delimiter ∉ l) (hline : F.delimiter ∉ line) :
    (F.run [join F.delimiter front ++ (line ++ F.delimiter :: back)]).2 =
      front.flatMap F.react ++ (F.react line ++ (F.turn back).2) := by
  have hcut : cut F.delimiter (join F.delimiter front) = (front, []) := by
    have := cut_join hfront []
    rwa [List.append_nil, cut_nil, List.append_nil] at this
  have hcut' : cut F.delimiter (line ++ [F.delimiter]) = ([line], []) := by
    simpa using cut_line hline []
  have hturn : (F.turn (line ++ F.delimiter :: back)).2 = F.react line ++ (F.turn back).2 := by
    rw [show line ++ F.delimiter :: back = (line ++ [F.delimiter]) ++ back by simp, turn_append,
      hcut']
    simp
  rw [run_single, turn_append, hcut]
  show _ ++ (F.turn (line ++ F.delimiter :: back)).2 = _
  rw [hturn]

end Framer

end LineFraming
