import ChatService.Foundation.AtomicProgram
import Mathlib.Logic.Relation

/-!
# Histories and stretches of interleaved runs

What an observer of a run can look back at, and the part of a run that begins in the middle.

* `Entry`, `Traced` — a run with its history: who did what, in which state; `Traced.begin`, `Traced.perform`
  and `Traced.run` for runs that are written out.
* `Traced.origin` — an action belongs to a program that was begun.
* `Typestate.history_invariant` — an invariant that may look at the history.
* `Path` — the steps from one configuration to another that meet a condition, with
  `Typestate.path_invariant`.
-/

namespace AtomicProgram

variable {Op : Type} {Resp : Op → Type} {Tid Input S Env Phase : Type} [DecidableEq Tid]

/-- Thread `thread` did `move` in the state `before`. -/
structure Entry (Tid Input Op : Type) (Resp : Op → Type) (S : Type) where
  thread : Tid
  before : S
  move : Move Input Op Resp

/-- A run from the quiet state `s₀`, with its history, latest last. -/
inductive Traced (M : Machine Tid Input Op Resp S Env) (s₀ : S) :
    List (Entry Tid Input Op Resp S) → Config Tid Input Op Resp S → Prop where
  | init : Traced M s₀ [] (.quiet s₀)
  | step {history c t move c'} : Traced M s₀ history c → Moves M c t move c' →
      Traced M s₀ (history ++ [⟨t, c.shared, move⟩]) c'

/-- The steps that meet `C`, from one configuration to another. -/
def Path (M : Machine Tid Input Op Resp S Env) (C : Config Tid Input Op Resp S → Tid → Prop) :
    Config Tid Input Op Resp S → Config Tid Input Op Resp S → Prop :=
  Relation.ReflTransGen fun c c' => ∃ t, C c t ∧ Step M c t c'

section

variable {M : Machine Tid Input Op Resp S Env} {C : Config Tid Input Op Resp S → Tid → Prop} {s₀ : S}

theorem Reachable.mono {C' : Config Tid Input Op Resp S → Tid → Prop} (hC : ∀ c t, C c t → C' c t)
    {c : Config Tid Input Op Resp S} (h : Reachable M C s₀ c) : Reachable M C' s₀ c := by
  induction h with
  | init => exact .init
  | step _ hct hstep ih => exact ih.step (hC _ _ hct) hstep

/-- A run that has a history is a run, … -/
theorem Traced.reachable {history : List (Entry Tid Input Op Resp S)}
    {c : Config Tid Input Op Resp S} (h : Traced M s₀ history c) :
    Reachable M (fun _ _ => True) s₀ c := by
  induction h with
  | init => exact .init
  | step _ hmove ih => exact ih.step trivial hmove.step

/-- … and every run has a history. -/
theorem Reachable.traced {c : Config Tid Input Op Resp S} (h : Reachable M C s₀ c) :
    ∃ history, Traced M s₀ history c := by
  induction h with
  | init => exact ⟨[], .init⟩
  | step _ _ hstep ih =>
    obtain ⟨history, htraced⟩ := ih
    obtain ⟨move, hmove⟩ := hstep.moves
    exact ⟨_, htraced.step hmove⟩

/-- Every entry of a history was a move, from what had been reached before. -/
theorem Traced.split {history before after : List (Entry Tid Input Op Resp S)}
    {c : Config Tid Input Op Resp S} (h : Traced M s₀ history c) {entry : Entry Tid Input Op Resp S}
    (hhistory : history = before ++ entry :: after) :
    ∃ c₁ c₂, Traced M s₀ before c₁ ∧ c₁.shared = entry.before ∧ Moves M c₁ entry.thread entry.move c₂ := by
  induction h generalizing after with
  | init => exact absurd hhistory (by simp)
  | @step history c t move c' hrun hmove ih =>
    rcases List.eq_nil_or_concat after with rfl | ⟨after, last, rfl⟩
    · obtain ⟨rfl, hlast⟩ := List.append_inj' hhistory rfl
      obtain rfl := List.singleton_inj.mp hlast
      exact ⟨c, c', hrun, rfl, hmove⟩
    · rw [List.concat_eq_append, ← List.cons_append, ← List.append_assoc] at hhistory
      exact ih (List.append_inj' hhistory rfl).1

/-- **Every action belongs to a program that its thread has begun.** -/
theorem Traced.origin {Q : Tid → Input → Op → Prop} (hprograms : ∀ t i, (M.program t i).Only (Q t i))
    {history before after : List (Entry Tid Input Op Resp S)} {c : Config Tid Input Op Resp S} {t : Tid} {s : S}
    {event : Event Op Resp} (h : Traced M s₀ history c) (hhistory : history = before ++ ⟨t, s, .act event⟩ :: after) :
    ∃ i s', ⟨t, s', .begin i⟩ ∈ before ∧ Q t i event.op := by
  -- a thread inside a program has begun it, and goes on with its actions
  have hthreads : ∀ {history : List (Entry Tid Input Op Resp S)} {c}, Traced M s₀ history c →
      ∀ t thread, c.threads t = some thread →
        (∃ s', ⟨t, s', .begin thread.input⟩ ∈ history) ∧ thread.rest.Only (Q t thread.input) := by
    intro history c h
    induction h with
    | init => exact fun t thread ht => absurd ht (by simp [Config.quiet])
    | @step history c t move c' _ hmove ih =>
      -- only thread `t` changes
      have others : ∀ {changed : Option (Thread Input Op Resp)},
          (∀ thread, changed = some thread → (∃ s', ⟨t, s', .begin thread.input⟩ ∈ history ++ [⟨t, c.shared, move⟩]) ∧
            thread.rest.Only (Q t thread.input)) →
          ∀ t' thread, Function.update c.threads t changed t' = some thread →
            (∃ s', ⟨t', s', .begin thread.input⟩ ∈ history ++ [⟨t, c.shared, move⟩]) ∧
              thread.rest.Only (Q t' thread.input) := by
        intro changed hchanged t' thread hthread
        by_cases ht : t' = t
        · subst ht
          rw [Function.update_self] at hthread
          exact hchanged thread hthread
        · rw [Function.update_of_ne ht] at hthread
          obtain ⟨⟨s', hbegun⟩, honly⟩ := ih t' thread hthread
          exact ⟨⟨s', List.mem_append_left _ hbegun⟩, honly⟩
      cases hmove with
      | @begin i _ _ =>
        refine others fun thread hthread => ?_
        obtain rfl := Option.some.inj hthread
        exact ⟨⟨c.shared, by simp⟩, hprograms t i⟩
      | act env hnow =>
        refine others fun thread hthread => ?_
        obtain rfl := Option.some.inj hthread
        obtain ⟨⟨s', hbegun⟩, honly⟩ := ih t _ hnow
        exact ⟨⟨s', List.mem_append_left _ hbegun⟩, honly.2 _⟩
      | finish _ => exact others fun thread hthread => absurd hthread (by simp)
  obtain ⟨c₁, c₂, hbefore, -, hmove⟩ := h.split hhistory
  cases hmove with
  | act env hnow =>
    obtain ⟨⟨s', hbegun⟩, honly⟩ := hthreads hbefore t _ hnow
    exact ⟨_, s', hbegun, honly.1⟩

section Turns

variable {history : List (Entry Tid Input Op Resp S)} {s : S} {T : Tid → Option (Thread Input Op Resp)}
  {t : Tid} {i : Input}

/-- A thread begins a program. -/
theorem Traced.begin (h : Traced M s₀ history ⟨s, T⟩) (hidle : T t = none) (hadmits : M.admits s t i) :
    Traced M s₀ (history ++ [⟨t, s, .begin i⟩])
      ⟨M.enter t i s, Function.update T t (some ⟨i, [], M.program t i⟩)⟩ :=
  h.step (.begin hidle hadmits)

/-- It takes its next action, and gets the response. -/
theorem Traced.perform (env : Env) {done : List (Event Op Resp)} {op : Op}
    {next : Resp op → Prog Op Resp Unit}
    (h : Traced M s₀ history ⟨s, Function.update T t (some ⟨i, done, .call op next⟩)⟩) {r : Resp op}
    (hr : (M.exec env op s).1 = r) :
    Traced M s₀ (history ++ [⟨t, s, .act ⟨op, r⟩⟩])
      ⟨(M.exec env op s).2, Function.update T t (some ⟨i, ⟨op, r⟩ :: done, next r⟩)⟩ := by
  subst hr
  have hstep := h.step (.act env (Function.update_self ..))
  rwa [Function.update_idem] at hstep

/-- The entries of a thread that takes the rest of its program without interruption. -/
def restEntries (M : Machine Tid Input Op Resp S Env) (env : Env) (t : Tid) (p : Prog Op Resp Unit)
    (s : S) : List (Entry Tid Input Op Resp S) :=
  (p.log M.exec env s).map (fun entry => ⟨t, entry.1, .act entry.2⟩) ++
    [⟨t, (p.run M.exec env s).2, .finish⟩]

omit [DecidableEq Tid] in
theorem thread_of_mem_restEntries {env : Env} {p : Prog Op Resp Unit} {entry : Entry Tid Input Op Resp S}
    (h : entry ∈ restEntries M env t p s) : entry.thread = t := by
  rcases List.mem_append.mp h with h | h
  · obtain ⟨_, -, rfl⟩ := List.mem_map.mp h
    rfl
  · rw [List.mem_singleton.mp h]

theorem Traced.run_rest (env : Env) (p : Prog Op Resp Unit) :
    ∀ {history : List (Entry Tid Input Op Resp S)} {done : List (Event Op Resp)} {s : S},
      Traced M s₀ history ⟨s, Function.update T t (some ⟨i, done, p⟩)⟩ →
      Traced M s₀ (history ++ restEntries M env t p s)
        ⟨(p.run M.exec env s).2, Function.update T t none⟩ := by
  induction p with
  | ret a =>
    intro history done s h
    have hstep := h.step (.finish (Function.update_self ..))
    rwa [Function.update_idem] at hstep
  | call op next ih =>
    intro history done s h
    have hrest := ih _ (h.perform env rfl)
    rwa [List.append_assoc] at hrest

/-- A thread may run a whole program without interruption, while others are inside theirs. -/
theorem Traced.run (env : Env) (h : Traced M s₀ history ⟨s, T⟩) (hidle : T t = none)
    (hadmits : M.admits s t i) :
    Traced M s₀ (history ++ ⟨t, s, .begin i⟩ :: restEntries M env t (M.program t i) (M.enter t i s))
      ⟨((M.program t i).run M.exec env (M.enter t i s)).2, T⟩ := by
  have hrun := (h.begin hidle hadmits).run_rest env
  rwa [List.append_assoc, ← hidle, Function.update_eq_self] at hrun

end Turns

/-- A run may go on along a path. -/
theorem Reachable.path {c c' : Config Tid Input Op Resp S} (h : Reachable M C s₀ c)
    (hpath : Path M C c c') : Reachable M C s₀ c' := by
  induction hpath with
  | refl => exact h
  | tail _ hstep ih =>
    obtain ⟨t, hct, hstep⟩ := hstep
    exact ih.step hct hstep

end

namespace Typestate

variable {T : Typestate Tid Op Resp Phase} {M : Machine Tid Input Op Resp S Env}
  {K : S → (Tid → Phase) → Prop} {s₀ : S}

/-- **Histories.**  What holds of the empty history and is kept by every disciplined move holds of every
history. -/
theorem history_invariant
    (hprograms : ∀ t i, T.Follows t T.resting (M.program t i) fun phase _ => T.mayRest phase)
    {H : List (Entry Tid Input Op Resp S) → S → (Tid → Phase) → Prop}
    (hinit : H [] s₀ fun _ => T.resting)
    (hmove : ∀ {history s P t move s' P'}, H history s P → T.Advances M s P t move s' P' →
      H (history ++ [⟨t, s, move⟩]) s' P')
    {history : List (Entry Tid Input Op Resp S)} {c : Config Tid Input Op Resp S}
    (h : Traced M s₀ history c) : H history c.shared (T.phases c) ∧ T.Following c := by
  induction h with
  | init => exact ⟨hinit, T.following_quiet s₀⟩
  | step _ hm ih =>
    obtain ⟨hfollowing, hadvances⟩ := ih.2.moves hprograms hm
    exact ⟨hmove ih.1 hadvances, hfollowing⟩

/-- **Paths.**  What holds at the beginning of a path and is kept by every disciplined move holds at its end. -/
theorem path_invariant
    (hprograms : ∀ t i, T.Follows t T.resting (M.program t i) fun phase _ => T.mayRest phase)
    (hmove : ∀ {s P t move s' P'}, K s P → T.Advances M s P t move s' P' → K s' P')
    {C : Config Tid Input Op Resp S → Tid → Prop} {c c' : Config Tid Input Op Resp S}
    (hfollowing : T.Following c) (hK : K c.shared (T.phases c)) (h : Path M C c c') :
    K c'.shared (T.phases c') ∧ T.Following c' := by
  induction h with
  | refl => exact ⟨hK, hfollowing⟩
  | tail _ hstep ih =>
    obtain ⟨t, -, hstep⟩ := hstep
    obtain ⟨move, hm⟩ := hstep.moves
    obtain ⟨hfollowing', hadvances⟩ := ih.2.moves hprograms hm
    exact ⟨hmove ih.1 hadvances, hfollowing'⟩

/-- What every disciplined move keeps holds in every reachable state, whatever the steps. -/
theorem invariant_always
    (hprograms : ∀ t i, T.Follows t T.resting (M.program t i) fun phase _ => T.mayRest phase)
    (hkeeps : T.Keeps M (fun _ _ _ _ => True) K) (hinit : K s₀ fun _ => T.resting)
    {c : Config Tid Input Op Resp S} (h : Reachable M (fun _ _ => True) s₀ c) :
    K c.shared (T.phases c) ∧ T.Following c :=
  invariant hprograms hkeeps hinit (h.mono fun _ _ _ _ _ _ _ _ => trivial)

end Typestate

end AtomicProgram
