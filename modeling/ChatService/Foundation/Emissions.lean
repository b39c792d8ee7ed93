import ChatService.Foundation.Histories
import Mathlib.Data.List.Forall2

/-!
# What a thread emits

Some actions of a thread can be seen from outside: `out t event` is what is seen of an action of thread `t`.
A thread takes one program after another, so what it emits is what its programs emit, one after another,
whatever the others do meanwhile.

* `Prog.Emits` — what a program emits, whatever the responses, and which actions it takes.
* `emitted`, `begun` — what a thread has emitted in a history, and what it has begun.
* `Traced.emissions` — what it has emitted falls into blocks, one for each input that it has begun, and each
  block is one that the program of its input may emit.
-/

namespace AtomicProgram

variable {Op : Type} {Resp : Op → Type} {α β γ : Type}

namespace Prog

section

variable (may : Op → Prop) (out : Event Op Resp → List γ)

/-- When `xs` has been emitted already, the program takes such actions only and ends with `Q`, whatever the
responses. -/
def Emits : List γ → Prog Op Resp α → (List γ → α → Prop) → Prop
  | xs, ret a, Q => Q xs a
  | xs, call op next, Q => may op ∧ ∀ r, Emits (xs ++ out ⟨op, r⟩) (next r) Q

end

variable {may : Op → Prop} {out : Event Op Resp → List γ}

/-- Sequential composition. -/
theorem Emits.bind {p : Prog Op Resp α} {f : α → Prog Op Resp β} {Q : List γ → β → Prop} {xs : List γ}
    (h : p.Emits may out xs fun ys a => (f a).Emits may out ys Q) : (p >>= f).Emits may out xs Q := by
  induction p generalizing xs with
  | ret a => exact h
  | call op next ih => exact ⟨h.1, fun r => ih r (h.2 r)⟩

theorem Emits.mono {p : Prog Op Resp α} {Q Q' : List γ → α → Prop} {xs : List γ} (h : p.Emits may out xs Q)
    (hQ : ∀ ys a, Q ys a → Q' ys a) : p.Emits may out xs Q' := by
  induction p generalizing xs with
  | ret a => exact hQ _ _ h
  | call op next ih => exact ⟨h.1, fun r => ih r (h.2 r)⟩

theorem Emits.only {p : Prog Op Resp α} {Q : List γ → α → Prop} {xs : List γ} (h : p.Emits may out xs Q) :
    p.Only may := by
  induction p generalizing xs with
  | ret a => trivial
  | call op next ih => exact ⟨h.1, fun r => ih r (h.2 r)⟩

end Prog

variable {Tid Input S Env : Type} [DecidableEq Tid]

/-- What is seen of one entry of thread `t`. -/
def Entry.emits (out : Event Op Resp → List γ) (t : Tid) (entry : Entry Tid Input Op Resp S) : List γ :=
  match entry.move with
  | .act event => if entry.thread = t then out event else []
  | _ => []

/-- What thread `t` begins with an entry. -/
def Entry.begins (t : Tid) (entry : Entry Tid Input Op Resp S) : List Input :=
  match entry.move with
  | .begin i => if entry.thread = t then [i] else []
  | _ => []

/-- What thread `t` has emitted. -/
def emitted (out : Event Op Resp → List γ) (t : Tid) (history : List (Entry Tid Input Op Resp S)) : List γ :=
  history.flatMap (Entry.emits out t)

/-- The inputs that thread `t` has begun. -/
def begun (t : Tid) (history : List (Entry Tid Input Op Resp S)) : List Input :=
  history.flatMap (Entry.begins t)

variable {out : Event Op Resp → List γ} {t : Tid} {history : List (Entry Tid Input Op Resp S)}
  {entry : Entry Tid Input Op Resp S}

theorem emitted_concat :
    emitted out t (history ++ [entry]) = emitted out t history ++ entry.emits out t := by
  simp [emitted]

theorem begun_concat : begun t (history ++ [entry]) = begun t history ++ entry.begins t := by
  simp [begun]

/-- How far a thread has come with what it emits: the blocks of the programs that it has finished, and what
the program it is in has emitted. -/
def Blocks (may : Op → Prop) (out : Event Op Resp → List γ) (Answers : Input → List γ → Prop) (is : List Input)
    (xs : List γ) : Option (Thread Input Op Resp) → Prop
  | none => ∃ blocks, xs = blocks.flatten ∧ List.Forall₂ Answers is blocks
  | some thread => ∃ finished blocks ys, is = finished ++ [thread.input] ∧ xs = blocks.flatten ++ ys ∧
      List.Forall₂ Answers finished blocks ∧ thread.rest.Emits may out ys fun zs _ => Answers thread.input zs

/-- **What a thread emits falls into blocks**, one for each input, and each block is one that the program of
its input may emit. -/
theorem Traced.emissions {M : Machine Tid Input Op Resp S Env} {s₀ : S} (t : Tid)
    {may : Op → Prop} {Answers : Input → List γ → Prop}
    (hprograms : ∀ i, (M.program t i).Emits may out [] fun xs _ => Answers i xs)
    {c : Config Tid Input Op Resp S} (h : Traced M s₀ history c) :
    Blocks may out Answers (begun t history) (emitted out t history) (c.threads t) := by
  induction h with
  | init => exact ⟨[], rfl, .nil⟩
  | @step history c t' move c' _ hmove ih =>
    rw [begun_concat, emitted_concat]
    by_cases ht : t' = t
    · subst ht
      cases hmove with
      | @begin i hidle _ =>
        rw [hidle] at ih
        obtain ⟨blocks, hxs, hblocks⟩ := ih
        dsimp only
        rw [Function.update_self]
        exact ⟨_, blocks, [], by simp [Entry.begins], by simp [Entry.emits, hxs], hblocks, hprograms i⟩
      | @act i done op next env hthread =>
        rw [hthread] at ih
        obtain ⟨finished, blocks, ys, his, hxs, hblocks, hrest⟩ := ih
        dsimp only
        rw [Function.update_self]
        refine ⟨finished, blocks, ys ++ out ⟨op, (M.exec env op c.shared).1⟩, ?_, ?_, hblocks, hrest.2 _⟩
        · simp [Entry.begins, his]
        · simp [Entry.emits, hxs]
      | @finish i done hthread =>
        rw [hthread] at ih
        obtain ⟨finished, blocks, ys, his, hxs, hblocks, hrest⟩ := ih
        dsimp only
        rw [Function.update_self]
        refine ⟨blocks ++ [ys], by simp [Entry.emits, hxs], ?_⟩
        simp only [Entry.begins, List.append_nil, his]
        exact List.rel_append hblocks (.cons hrest .nil)
    · -- another thread: nothing of thread `t` changes
      have hnothing : ∀ m : Move Input Op Resp,
          (⟨t', c.shared, m⟩ : Entry Tid Input Op Resp S).begins t = [] ∧
            (⟨t', c.shared, m⟩ : Entry Tid Input Op Resp S).emits out t = [] := by
        intro m
        cases m <;> simp [Entry.begins, Entry.emits, ht]
      rw [(hnothing move).1, (hnothing move).2, List.append_nil, List.append_nil]
      have hsame : c'.threads t = c.threads t := by
        cases hmove <;> exact Function.update_of_ne (Ne.symm ht) ..
      rwa [hsame]

end AtomicProgram
