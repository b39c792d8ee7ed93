import ChatService.Foundation.Bytes

/-!
# Scanning a text by position

A hand-written scanner walks an immutable text with a position that it moves forward.  This file
provides what every such scanner needs, independently of the language it recognises:

* `Scan` — how a scan ends: a value with the position after it, an error with the position where it
  was noticed, or one of the two faults a scanner must never show (a read at or past the end of the
  text, a loop that outlives its bound);
* `readByte` — the unguarded read `text[pos]`, which faults past the end;
* `advanceWhile` — the loop `while (pos < size && p(text[pos])) ++pos`, with its exact result;
* `Consumes text pos pos' v` — the scanner went from `pos` to `pos'` over exactly the bytes `v`;
  soundness and completeness of a scanner are both stated with it.
-/

namespace ChatService

/-- How a scan ends. -/
inductive Scan (α : Type) where
  | ok (value : α) (pos : ℕ)
  | error (message : Bytes) (pos : ℕ)
  | outOfRange
  | outOfFuel
deriving DecidableEq, Repr

namespace Scan

variable {α β : Type}

/-- Continue after a successful scan; an error or a fault ends the whole scan. -/
def bind : Scan α → (α → ℕ → Scan β) → Scan β
  | .ok value pos, next => next value pos
  | .error message pos, _ => .error message pos
  | .outOfRange, _ => .outOfRange
  | .outOfFuel, _ => .outOfFuel

@[simp] theorem bind_ok (a : α) (pos : ℕ) (next : α → ℕ → Scan β) :
    (Scan.ok a pos).bind next = next a pos := rfl

@[simp] theorem bind_error (m : Bytes) (pos : ℕ) (next : α → ℕ → Scan β) :
    (Scan.error m pos).bind next = .error m pos := rfl

/-- A composed scan succeeds exactly when both parts do. -/
theorem bind_eq_ok {x : Scan α} {next : α → ℕ → Scan β} {b : β} {pos' : ℕ} :
    x.bind next = .ok b pos' ↔ ∃ a pos, x = .ok a pos ∧ next a pos = .ok b pos' := by
  cases x <;> simp [bind]

/-- The scan shows no fault, does not leave the text, and, when it succeeds, ends at `lo` or later. -/
def Within (text : Bytes) (lo : ℕ) : Scan α → Prop
  | .ok _ pos => lo ≤ pos ∧ pos ≤ text.length
  | .error _ pos => pos ≤ text.length
  | .outOfRange => False
  | .outOfFuel => False

@[simp] theorem within_ok {text : Bytes} {lo pos : ℕ} {a : α} :
    (Scan.ok a pos).Within text lo ↔ lo ≤ pos ∧ pos ≤ text.length := Iff.rfl

@[simp] theorem within_error {text : Bytes} {lo pos : ℕ} {m : Bytes} :
    (Scan.error m pos : Scan α).Within text lo ↔ pos ≤ text.length := Iff.rfl

theorem Within.bind {text : Bytes} {lo lo' : ℕ} {x : Scan α} {next : α → ℕ → Scan β}
    (hx : x.Within text lo)
    (hnext : ∀ a pos, lo ≤ pos → pos ≤ text.length → (next a pos).Within text lo') :
    (x.bind next).Within text lo' := by
  cases x with
  | ok a pos => exact hnext a pos hx.1 hx.2
  | error m pos => exact hx
  | outOfRange => exact hx
  | outOfFuel => exact hx

theorem Within.mono {text : Bytes} {lo lo' : ℕ} {x : Scan α} (hx : x.Within text lo) (h : lo' ≤ lo) :
    x.Within text lo' := by
  cases x with
  | ok a pos => exact ⟨h.trans hx.1, hx.2⟩
  | error m pos => exact hx
  | outOfRange => exact hx
  | outOfFuel => exact hx

end Scan

/-- The read `text[pos]`; a position at or past the end is a fault. -/
def readByte {β : Type} (text : Bytes) (pos : ℕ) (next : UInt8 → Scan β) : Scan β :=
  match text[pos]? with
  | some ch => next ch
  | none => .outOfRange

/-- `text.substr(pos, n)`. -/
def substr (text : Bytes) (pos n : ℕ) : Bytes := (text.drop pos).take n

/-- The loop `while (pos < text.size() && p(text[pos])) ++pos`, run for at most `fuel` rounds. -/
def advanceLoop (p : UInt8 → Bool) (text : Bytes) : ℕ → ℕ → ℕ
  | 0, pos => pos
  | fuel + 1, pos => if (text[pos]?).any p then advanceLoop p text fuel (pos + 1) else pos

/-- The same loop with enough rounds for every text (`advanceWhile_stops`). -/
def advanceWhile (p : UInt8 → Bool) (text : Bytes) (pos : ℕ) : ℕ :=
  advanceLoop p text (text.length - pos) pos

/-! ### What a scanner has gone over -/

/-- From `pos` to `pos'` lie exactly the bytes `v`. -/
structure Consumes (text : Bytes) (pos pos' : ℕ) (v : Bytes) : Prop where
  drop_eq : text.drop pos = v ++ text.drop pos'
  pos_eq : pos' = pos + v.length

namespace Consumes

variable {text : Bytes} {pos pos₁ pos₂ : ℕ} {u v w : Bytes} {ch : UInt8}

theorem nil (text : Bytes) (pos : ℕ) : Consumes text pos pos [] := ⟨by simp, by simp⟩

/-- One byte further. -/
theorem byte (h : text[pos]? = some ch) : Consumes text pos (pos + 1) [ch] := by
  obtain ⟨hlt, rfl⟩ := List.getElem?_eq_some_iff.mp h
  exact ⟨by simp, rfl⟩

theorem append (h₁ : Consumes text pos pos₁ v) (h₂ : Consumes text pos₁ pos₂ w) :
    Consumes text pos pos₂ (v ++ w) := by
  refine ⟨?_, ?_⟩
  · rw [h₁.drop_eq, h₂.drop_eq, List.append_assoc]
  · rw [h₂.pos_eq, h₁.pos_eq, List.length_append, Nat.add_assoc]

theorem cons (h : text[pos]? = some ch) (h₂ : Consumes text (pos + 1) pos₂ w) :
    Consumes text pos pos₂ (ch :: w) := by
  simpa using (byte h).append h₂

/-- Reaching the end of what `drop` leaves. -/
theorem of_drop_eq (h : text.drop pos = v ++ w) : Consumes text pos (pos + v.length) v := by
  have hw : text.drop (pos + v.length) = w := by rw [← List.drop_drop, h, List.drop_left]
  exact ⟨by rw [hw, h], rfl⟩

/-- The bytes gone over may be cut anywhere. -/
theorem split (h : Consumes text pos pos₂ (v ++ w)) :
    Consumes text pos (pos + v.length) v ∧ Consumes text (pos + v.length) pos₂ w := by
  have hv : Consumes text pos (pos + v.length) v :=
    of_drop_eq (by rw [h.drop_eq, List.append_assoc])
  refine ⟨hv, ?_, ?_⟩
  · have := h.drop_eq
    rw [hv.drop_eq, List.append_assoc] at this
    exact List.append_cancel_left this
  · rw [h.pos_eq, List.length_append, Nat.add_assoc]

theorem head (h : Consumes text pos pos₂ (ch :: w)) :
    text[pos]? = some ch ∧ Consumes text (pos + 1) pos₂ w := by
  have hs := split (v := [ch]) (w := w) (by simpa using h)
  refine ⟨?_, by simpa using hs.2⟩
  have := congrArg List.head? h.drop_eq
  simpa [List.head?_drop] using this

theorem lt_length (h : Consumes text pos pos₂ (ch :: w)) : pos < text.length :=
  (List.getElem?_eq_some_iff.mp h.head.1).1

theorem le_length (h : Consumes text pos pos₂ v) (hv : v ≠ []) : pos₂ ≤ text.length := by
  have hl := congrArg List.length h.drop_eq
  have := List.length_pos_iff.mpr hv
  simp only [List.length_append, List.length_drop] at hl
  have := h.pos_eq
  omega

theorem substr_eq (h : Consumes text pos pos₂ v) : substr text pos (pos₂ - pos) = v := by
  rw [substr, h.drop_eq, h.pos_eq, Nat.add_sub_cancel_left, List.take_left]

end Consumes

theorem getElem?_eq_head?_drop (text : Bytes) (pos : ℕ) : text[pos]? = (text.drop pos).head? := by
  rw [List.head?_drop]

theorem drop_eq_nil_of_getElem?_eq_none {text : Bytes} {pos : ℕ} (h : text[pos]? = none) :
    text.drop pos = [] := by
  rw [List.getElem?_eq_none_iff] at h
  exact List.drop_eq_nil_of_le h

theorem readByte_eq_ok {β : Type} {text : Bytes} {pos pos' : ℕ} {next : UInt8 → Scan β} {b : β} :
    readByte text pos next = .ok b pos' ↔ ∃ ch, text[pos]? = some ch ∧ next ch = .ok b pos' := by
  rw [readByte]
  cases text[pos]? <;> simp

theorem readByte_of_eq {β : Type} {text : Bytes} {pos : ℕ} {ch : UInt8} (next : UInt8 → Scan β)
    (h : text[pos]? = some ch) : readByte text pos next = next ch := by
  rw [readByte, h]

/-- A read below the end of the text shows no fault. -/
theorem readByte_within {β : Type} {text : Bytes} {pos lo : ℕ} {next : UInt8 → Scan β}
    (hpos : pos < text.length)
    (hnext : ∀ ch, text[pos]? = some ch → (next ch).Within text lo) :
    (readByte text pos next).Within text lo := by
  have hch : text[pos]? = some text[pos] := List.getElem?_eq_getElem hpos
  rw [readByte_of_eq next hch]
  exact hnext _ hch

/-! ### The advance loop -/

/-- One round of the loop, and its exit. -/
theorem advanceLoop_eq (p : UInt8 → Bool) (text : Bytes) :
    ∀ fuel pos, text.length - pos ≤ fuel →
      advanceLoop p text fuel pos = pos + ((text.drop pos).takeWhile p).length := by
  intro fuel
  induction fuel with
  | zero =>
    intro pos h
    rw [List.drop_eq_nil_of_le (by omega)]
    rfl
  | succ fuel ih =>
    intro pos h
    cases hch : text[pos]? with
    | none =>
      simp [advanceLoop, hch, drop_eq_nil_of_getElem?_eq_none hch]
    | some ch =>
      have hd : text.drop pos = ch :: text.drop (pos + 1) := by
        simpa using (Consumes.byte hch).drop_eq
      rw [advanceLoop, hch, hd]
      by_cases hp : p ch
      · have := ih (pos + 1) (by omega)
        simp [hp, this]
        omega
      · simp [hp]

theorem advanceWhile_eq (p : UInt8 → Bool) (text : Bytes) (pos : ℕ) :
    advanceWhile p text pos = pos + ((text.drop pos).takeWhile p).length :=
  advanceLoop_eq p text _ pos le_rfl

theorem le_advanceWhile (p : UInt8 → Bool) (text : Bytes) (pos : ℕ) :
    pos ≤ advanceWhile p text pos := by
  rw [advanceWhile_eq]
  omega

theorem advanceWhile_le (p : UInt8 → Bool) {text : Bytes} {pos : ℕ} (h : pos ≤ text.length) :
    advanceWhile p text pos ≤ text.length := by
  have hrun := (List.takeWhile_prefix p (l := text.drop pos)).length_le
  rw [List.length_drop] at hrun
  rw [advanceWhile_eq]
  omega

/-- The loop goes over a run of bytes that satisfy its test. -/
theorem advanceWhile_consumes (p : UInt8 → Bool) (text : Bytes) (pos : ℕ) :
    ∃ v, (∀ ch ∈ v, p ch = true) ∧ Consumes text pos (advanceWhile p text pos) v := by
  refine ⟨(text.drop pos).takeWhile p, fun ch h => List.mem_takeWhile_imp h, ?_⟩
  rw [advanceWhile_eq]
  exact Consumes.of_drop_eq (List.takeWhile_append_dropWhile).symm

theorem drop_advanceWhile (p : UInt8 → Bool) (text : Bytes) (pos : ℕ) :
    text.drop (advanceWhile p text pos) = (text.drop pos).dropWhile p := by
  have hrun : (text.drop pos).takeWhile p ++ (text.drop pos).dropWhile p = text.drop pos :=
    List.takeWhile_append_dropWhile
  rw [advanceWhile_eq]
  exact List.append_cancel_left ((Consumes.of_drop_eq hrun.symm).drop_eq.symm.trans hrun.symm)

/-- What the loop goes over, cut out of the text. -/
theorem substr_advanceWhile (p : UInt8 → Bool) (text : Bytes) (pos : ℕ) :
    substr text pos (advanceWhile p text pos - pos) = (text.drop pos).takeWhile p := by
  rw [advanceWhile_eq, Nat.add_sub_cancel_left, substr]
  exact (List.prefix_iff_eq_take.mp (List.takeWhile_prefix p)).symm

/-- The loop has run to its exit: the byte it stops at, if any, fails the test. -/
theorem advanceWhile_stops (p : UInt8 → Bool) (text : Bytes) (pos : ℕ) {ch : UInt8}
    (h : text[advanceWhile p text pos]? = some ch) : p ch = false := by
  have hdrop := drop_advanceWhile p text pos
  rw [getElem?_eq_head?_drop, hdrop] at h
  have := List.head?_dropWhile_not p (text.drop pos)
  rw [h] at this
  simpa using this

/-- **The loop is greedy.**  Over a run of matching bytes it stops right behind the run, when what
follows the run does not match. -/
theorem advanceWhile_of_consumes {p : UInt8 → Bool} {text : Bytes} {pos pos' : ℕ} {v : Bytes}
    (h : Consumes text pos pos' v) (hv : ∀ ch ∈ v, p ch = true)
    (hstop : ∀ ch, text[pos']? = some ch → p ch = false) : advanceWhile p text pos = pos' := by
  have hrest : (text.drop pos').takeWhile p = [] := by
    rw [List.takeWhile_eq_nil_iff]
    intro hlt hp
    have := hstop _ (by rw [getElem?_eq_head?_drop, List.head?_eq_getElem?, List.getElem?_eq_getElem hlt])
    simp_all
  rw [advanceWhile_eq, h.drop_eq, List.takeWhile_append_of_pos hv, hrest, List.append_nil, h.pos_eq]

end ChatService
