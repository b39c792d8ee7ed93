import Mathlib.Logic.Function.Basic
import Mathlib.Tactic.TypeStar

/-!
# Programs made of atomic actions, run one after another or interleaved

A *program* issues actions on a shared state one by one and continues with each response.  Several
threads run such programs: a thread that is idle may begin the program of an input, and from then on
every action it issues is one step; between two steps of one thread, the others may take any number of
steps.  Running each program to its end before the next one begins is the special case `Serial`.

* `Prog` — programs, with `bind` and `perform`; `Prog.run`, the uninterrupted run, `Prog.log`, its actions,
  and `Prog.Only`, a bound on the actions.
* `Machine`, `Step`, `Reachable` — the threads, their steps, and the states that steps reach; the steps
  may be restricted by a condition.  `Moves` are the steps with what the thread does.
* `Config.play` — a schedule, for runs that are written out.
* `Serial.reachable` — a run without interleaving is a run; `Recorded` is such a run with its actions.
* `Typestate` — a discipline: every thread is in a *phase* that its own actions determine, and each phase
  allows certain actions.  `Follows` says that a program keeps to the discipline, whatever the responses.
* `Typestate.invariant` — an invariant of shared state and phases that all allowed actions keep holds
  in every reachable state.
* `Typestate.both` — two disciplines at once.
-/

namespace AtomicProgram

variable {Op : Type} {Resp : Op → Type} {α β : Type}

/-- An action that has been issued, and the response to it. -/
structure Event (Op : Type) (Resp : Op → Type) where
  op : Op
  response : Resp op

/-- A program that issues actions `Op` and continues with their responses. -/
inductive Prog (Op : Type) (Resp : Op → Type) (α : Type) : Type where
  | ret (a : α)
  | call (op : Op) (next : Resp op → Prog Op Resp α)

namespace Prog

def bind : Prog Op Resp α → (α → Prog Op Resp β) → Prog Op Resp β
  | ret a, f => f a
  | call op next, f => call op fun r => (next r).bind f

instance : Monad (Prog Op Resp) where
  pure := ret
  bind := bind

/-- The program that issues one action. -/
def perform (op : Op) : Prog Op Resp (Resp op) := call op ret

@[simp] theorem pure_eq (a : α) : (pure a : Prog Op Resp α) = ret a := rfl

@[simp] theorem ret_bind (a : α) (f : α → Prog Op Resp β) : (ret a >>= f) = f a := rfl

@[simp] theorem call_bind (op : Op) (next : Resp op → Prog Op Resp α) (f : α → Prog Op Resp β) :
    (call op next >>= f) = call op fun r => next r >>= f := rfl

@[simp] theorem perform_bind (op : Op) (f : Resp op → Prog Op Resp β) :
    (perform op >>= f) = call op f := rfl

section Run

variable {S Env : Type} (exec : Env → (op : Op) → S → Resp op × S)

/-- The uninterrupted run of a program. -/
def run (env : Env) : Prog Op Resp α → S → α × S
  | ret a, s => (a, s)
  | call op next, s => (next (exec env op s).1).run env (exec env op s).2

@[simp] theorem run_ret (env : Env) (a : α) (s : S) : (ret a).run exec env s = (a, s) := rfl

@[simp] theorem run_call (env : Env) (op : Op) (next : Resp op → Prog Op Resp α) (s : S) :
    (call op next).run exec env s = (next (exec env op s).1).run exec env (exec env op s).2 := rfl

@[simp] theorem run_perform (env : Env) (op : Op) (s : S) :
    (perform op : Prog Op Resp (Resp op)).run exec env s = exec env op s := rfl

@[simp] theorem run_bind (env : Env) (p : Prog Op Resp α) (f : α → Prog Op Resp β) (s : S) :
    (p >>= f).run exec env s = (f (p.run exec env s).1).run exec env (p.run exec env s).2 := by
  induction p generalizing s with
  | ret a => rfl
  | call op next ih => exact ih _ _

/-- The actions of the uninterrupted run, each with the state it is taken in and its response. -/
def log (env : Env) : Prog Op Resp α → S → List (S × Event Op Resp)
  | ret _, _ => []
  | call op next, s =>
    (s, ⟨op, (exec env op s).1⟩) :: (next (exec env op s).1).log env (exec env op s).2

@[simp] theorem log_ret (env : Env) (a : α) (s : S) : (ret a : Prog Op Resp α).log exec env s = [] :=
  rfl

@[simp] theorem log_call (env : Env) (op : Op) (next : Resp op → Prog Op Resp α) (s : S) :
    (call op next).log exec env s =
      (s, ⟨op, (exec env op s).1⟩) :: (next (exec env op s).1).log exec env (exec env op s).2 := rfl

theorem log_bind (env : Env) (p : Prog Op Resp α) (f : α → Prog Op Resp β) (s : S) :
    (p >>= f).log exec env s =
      p.log exec env s ++ (f (p.run exec env s).1).log exec env (p.run exec env s).2 := by
  induction p generalizing s with
  | ret a => rfl
  | call op next ih =>
    show _ :: (next _ >>= f).log exec env _ = _
    rw [ih]
    rfl

end Run

/-- Every action the program may issue satisfies `Q`. -/
def Only (Q : Op → Prop) : Prog Op Resp α → Prop
  | ret _ => True
  | call op next => Q op ∧ ∀ r, (next r).Only Q

theorem only_perform {Q : Op → Prop} {op : Op} (h : Q op) :
    (perform op : Prog Op Resp (Resp op)).Only Q := ⟨h, fun _ => trivial⟩

theorem Only.bind {Q : Op → Prop} {p : Prog Op Resp α} {f : α → Prog Op Resp β} (h : p.Only Q)
    (hf : ∀ a, (f a).Only Q) : (p >>= f).Only Q := by
  induction p with
  | ret a => exact hf a
  | call op next ih => exact ⟨h.1, fun r => ih r (h.2 r)⟩

/-- The actions in the log are among those the program may issue. -/
theorem Only.log {S Env : Type} {exec : Env → (op : Op) → S → Resp op × S} {Q : Op → Prop}
    {p : Prog Op Resp α} (h : p.Only Q) (env : Env) :
    ∀ {s : S} {entry : S × Event Op Resp}, entry ∈ p.log exec env s → Q entry.2.op := by
  induction p with
  | ret a =>
    intro s entry hentry
    exact absurd hentry (by simp)
  | call op next ih =>
    intro s entry hentry
    rw [log_call, List.mem_cons] at hentry
    rcases hentry with rfl | hentry
    · exact h.1
    · exact ih _ (h.2 _) hentry

theorem Only.mono {Q Q' : Op → Prop} {p : Prog Op Resp α} (h : p.Only Q)
    (hQ : ∀ op, Q op → Q' op) : p.Only Q' := by
  induction p with
  | ret a => exact trivial
  | call op next ih => exact ⟨hQ op h.1, fun r => ih r (h.2 r)⟩

/-- What none of the actions in its log changes, the program leaves unchanged. -/
theorem run_unchanged {S Env γ : Type} {exec : Env → (op : Op) → S → Resp op × S} {env : Env}
    (f : S → γ) {p : Prog Op Resp α} :
    ∀ {s : S}, (∀ entry ∈ p.log exec env s, f (exec env entry.2.op entry.1).2 = f entry.1) →
      f (p.run exec env s).2 = f s := by
  induction p with
  | ret a => exact fun _ => rfl
  | call op next ih =>
    intro s hlog
    rw [log_call, List.forall_mem_cons] at hlog
    exact (ih _ hlog.2).trans hlog.1

end Prog

/-! ### Threads -/

/-- Threads, what they may begin, and what their actions do. -/
structure Machine (Tid Input Op : Type) (Resp : Op → Type) (S Env : Type) where
  exec : Env → (op : Op) → S → Resp op × S
  program : Tid → Input → Prog Op Resp Unit
  admits : S → Tid → Input → Prop
  enter : Tid → Input → S → S

/-- A thread inside a program: what it began with, what it has done so far (latest first), and what
is left. -/
structure Thread (Input Op : Type) (Resp : Op → Type) where
  input : Input
  done : List (Event Op Resp)
  rest : Prog Op Resp Unit

/-- The shared state, and the threads that are inside a program. -/
structure Config (Tid Input Op : Type) (Resp : Op → Type) (S : Type) where
  shared : S
  threads : Tid → Option (Thread Input Op Resp)

section Runs

variable {Tid Input S Env : Type} [DecidableEq Tid] (M : Machine Tid Input Op Resp S Env)

/-- Nobody is inside a program. -/
def Config.quiet (s : S) : Config Tid Input Op Resp S := ⟨s, fun _ => none⟩

def Config.Quiescent (c : Config Tid Input Op Resp S) : Prop := ∀ t, c.threads t = none

/-- One step of thread `t`: it begins a program, issues its next action, or is done. -/
inductive Step : Config Tid Input Op Resp S → Tid → Config Tid Input Op Resp S → Prop where
  | begin {c t i} : c.threads t = none → M.admits c.shared t i →
      Step c t ⟨M.enter t i c.shared,
        Function.update c.threads t (some ⟨i, [], M.program t i⟩)⟩
  | act {c t i done op next} (env : Env) : c.threads t = some ⟨i, done, .call op next⟩ →
      Step c t ⟨(M.exec env op c.shared).2,
        Function.update c.threads t
          (some ⟨i, ⟨op, (M.exec env op c.shared).1⟩ :: done, next (M.exec env op c.shared).1⟩)⟩
  | finish {c t i done} : c.threads t = some ⟨i, done, .ret ()⟩ →
      Step c t ⟨c.shared, Function.update c.threads t none⟩

/-- What a thread does in a step. -/
inductive Move (Input Op : Type) (Resp : Op → Type) where
  | begin (input : Input)
  | act (event : Event Op Resp)
  | finish

/-- The steps of thread `t`, with what it does. -/
inductive Moves : Config Tid Input Op Resp S → Tid → Move Input Op Resp →
    Config Tid Input Op Resp S → Prop where
  | begin {c t i} : c.threads t = none → M.admits c.shared t i →
      Moves c t (.begin i) ⟨M.enter t i c.shared,
        Function.update c.threads t (some ⟨i, [], M.program t i⟩)⟩
  | act {c t i done op next} (env : Env) : c.threads t = some ⟨i, done, .call op next⟩ →
      Moves c t (.act ⟨op, (M.exec env op c.shared).1⟩) ⟨(M.exec env op c.shared).2,
        Function.update c.threads t
          (some ⟨i, ⟨op, (M.exec env op c.shared).1⟩ :: done, next (M.exec env op c.shared).1⟩)⟩
  | finish {c t i done} : c.threads t = some ⟨i, done, .ret ()⟩ →
      Moves c t .finish ⟨c.shared, Function.update c.threads t none⟩

/-- What the steps that meet `C` reach from the quiet state `s₀`. -/
inductive Reachable (C : Config Tid Input Op Resp S → Tid → Prop) (s₀ : S) :
    Config Tid Input Op Resp S → Prop where
  | init : Reachable C s₀ (.quiet s₀)
  | step {c t c'} : Reachable C s₀ c → C c t → Step M c t c' → Reachable C s₀ c'

/-- What whole programs reach that run one after another. -/
inductive Serial (s₀ : S) : S → Prop where
  | init : Serial s₀ s₀
  | run {s} (t : Tid) (i : Input) (env : Env) : Serial s₀ s → M.admits s t i →
      Serial s₀ ((M.program t i).run M.exec env (M.enter t i s)).2

/-- The same, with the actions of all the programs in order. -/
inductive Recorded (s₀ : S) : List (S × Event Op Resp) → S → Prop where
  | init : Recorded s₀ [] s₀
  | run {log s} (t : Tid) (i : Input) (env : Env) : Recorded s₀ log s → M.admits s t i →
      Recorded s₀ (log ++ (M.program t i).log M.exec env (M.enter t i s))
        ((M.program t i).run M.exec env (M.enter t i s)).2

/-- Thread `t` begins a program. -/
def Config.begin (c : Config Tid Input Op Resp S) (t : Tid) (i : Input) : Config Tid Input Op Resp S :=
  ⟨M.enter t i c.shared, Function.update c.threads t (some ⟨i, [], M.program t i⟩)⟩

/-- Thread `t` takes its next step, if it is inside a program. -/
def Config.advance (env : Env) (c : Config Tid Input Op Resp S) (t : Tid) :
    Config Tid Input Op Resp S :=
  match c.threads t with
  | none => c
  | some ⟨_, _, .ret _⟩ => ⟨c.shared, Function.update c.threads t none⟩
  | some ⟨i, done, .call op next⟩ =>
    ⟨(M.exec env op c.shared).2, Function.update c.threads t
      (some ⟨i, ⟨op, (M.exec env op c.shared).1⟩ :: done, next (M.exec env op c.shared).1⟩)⟩

/-- The threads of a schedule take their next steps in turn. -/
def Config.play (env : Env) (c : Config Tid Input Op Resp S) (schedule : List Tid) :
    Config Tid Input Op Resp S :=
  schedule.foldl (Config.advance M env) c

variable {M} {C : Config Tid Input Op Resp S → Tid → Prop} {s₀ : S}

theorem Step.moves {c c' : Config Tid Input Op Resp S} {t : Tid} (h : Step M c t c') :
    ∃ move, Moves M c t move c' := by
  cases h with
  | begin hidle hadmits => exact ⟨_, .begin hidle hadmits⟩
  | act env hthread => exact ⟨_, .act env hthread⟩
  | finish hthread => exact ⟨_, .finish hthread⟩

theorem Moves.step {c c' : Config Tid Input Op Resp S} {t : Tid} {move : Move Input Op Resp}
    (h : Moves M c t move c') : Step M c t c' := by
  cases h with
  | begin hidle hadmits => exact .begin hidle hadmits
  | act env hthread => exact .act env hthread
  | finish hthread => exact .finish hthread

omit [DecidableEq Tid] in
theorem Serial.recorded {s : S} (h : Serial M s₀ s) : ∃ log, Recorded M s₀ log s := by
  induction h with
  | init => exact ⟨[], .init⟩
  | run t i env _ hadmits ih =>
    obtain ⟨log, hlog⟩ := ih
    exact ⟨_, hlog.run t i env hadmits⟩

omit [DecidableEq Tid] in
theorem Recorded.serial {log : List (S × Event Op Resp)} {s : S} (h : Recorded M s₀ log s) :
    Serial M s₀ s := by
  induction h with
  | init => exact .init
  | run t i env _ hadmits ih => exact .run t i env ih hadmits

section Schedules

variable {c : Config Tid Input Op Resp S} {t : Tid}

theorem Reachable.begin (hC : ∀ c t, C c t) (h : Reachable M C s₀ c) {i : Input}
    (hidle : c.threads t = none) (hadmits : M.admits c.shared t i) :
    Reachable M C s₀ (c.begin M t i) :=
  h.step (hC c t) (.begin hidle hadmits)

theorem Reachable.advance (hC : ∀ c t, C c t) (h : Reachable M C s₀ c) (env : Env) (t : Tid) :
    Reachable M C s₀ (c.advance M env t) := by
  rw [Config.advance]
  split
  · exact h
  · next hthread => exact h.step (hC c t) (.finish hthread)
  · next hthread => exact h.step (hC c t) (.act env hthread)

/-- Whatever the schedule, its outcome is reachable. -/
theorem Reachable.play (hC : ∀ c t, C c t) (env : Env) (schedule : List Tid) :
    ∀ {c : Config Tid Input Op Resp S}, Reachable M C s₀ c →
      Reachable M C s₀ (c.play M env schedule) := by
  induction schedule with
  | nil => exact id
  | cons t schedule ih => exact fun h => ih (h.advance hC env t)

/-- A thread that is not in the schedule stays where it is. -/
theorem Config.threads_play (env : Env) (schedule : List Tid) (ht : t ∉ schedule) :
    ∀ c : Config Tid Input Op Resp S, (c.play M env schedule).threads t = c.threads t := by
  induction schedule with
  | nil => exact fun c => rfl
  | cons t' schedule ih =>
    intro c
    have hne : t ≠ t' := fun h => ht (h ▸ List.mem_cons_self)
    have hadvance : (c.advance M env t').threads t = c.threads t := by
      rw [Config.advance]
      split
      · rfl
      · exact Function.update_of_ne hne ..
      · exact Function.update_of_ne hne ..
    exact (ih (fun h => ht (List.mem_cons_of_mem _ h)) _).trans hadvance

end Schedules

/-- A thread may take the rest of its program without interruption. -/
theorem Reachable.run_rest {T : Tid → Option (Thread Input Op Resp)} {t : Tid} {i : Input}
    (hC : ∀ s th, C ⟨s, Function.update T t (some th)⟩ t) (env : Env) (p : Prog Op Resp Unit) :
    ∀ {done : List (Event Op Resp)} {s : S},
      Reachable M C s₀ ⟨s, Function.update T t (some ⟨i, done, p⟩)⟩ →
      Reachable M C s₀ ⟨(p.run M.exec env s).2, Function.update T t none⟩ := by
  induction p with
  | ret a =>
    intro done s h
    have hstep := Step.finish (M := M) (c := ⟨s, Function.update T t (some ⟨i, done, .ret a⟩)⟩)
      (t := t) (i := i) (Function.update_self ..)
    have hnext := Reachable.step h (hC _ _) hstep
    rwa [Function.update_idem] at hnext
  | call op next ih =>
    intro done s h
    have hstep := Step.act (M := M) (c := ⟨s, Function.update T t (some ⟨i, done, .call op next⟩)⟩)
      (t := t) (i := i) env (Function.update_self ..)
    have hnext := Reachable.step h (hC _ _) hstep
    rw [Function.update_idem] at hnext
    exact ih _ hnext

/-- **A serial run is a run.**  It needs the step condition only where a single thread is active. -/
theorem Serial.reachable
    (hC : ∀ (c : Config Tid Input Op Resp S) t, (∀ t', t' ≠ t → c.threads t' = none) → C c t)
    {s : S} (h : Serial M s₀ s) : Reachable M C s₀ (.quiet s) := by
  have hlone : ∀ (t : Tid) s th, C ⟨s, Function.update (fun _ => none) t th⟩ t := by
    intro t s th
    refine hC _ t fun t' ht => ?_
    show Function.update (fun _ => none) t th t' = none
    rw [Function.update_of_ne ht]
  induction h with
  | init => exact .init
  | @run s t i env _ hadmits ih =>
    have hidle : C (.quiet s) t := hC _ t fun _ _ => rfl
    have hbegin := Reachable.step ih hidle (Step.begin (c := .quiet s) (t := t) rfl hadmits)
    have hend := Reachable.run_rest (fun s th => hlone t s (some th)) env _ hbegin
    have hquiet : Function.update (fun _ => none) t none =
        (fun _ => none : Tid → Option (Thread Input Op Resp)) := Function.update_eq_self t _
    rwa [hquiet] at hend

end Runs

/-! ### Disciplines -/

/-- A discipline: the phases of a thread, how its actions move it through them, and which actions a
phase allows.  Between two programs a thread is `resting`. -/
structure Typestate (Tid Op : Type) (Resp : Op → Type) (Phase : Type) where
  resting : Phase
  next : Tid → Phase → (op : Op) → Resp op → Phase
  allowed : Tid → Phase → Op → Prop
  mayRest : Phase → Prop

namespace Typestate

variable {Tid Input S Env Phase : Type} (T : Typestate Tid Op Resp Phase)

/-- The phase that what a thread has done puts it in. -/
def phaseOf (t : Tid) : List (Event Op Resp) → Phase
  | [] => T.resting
  | event :: done => T.next t (phaseOf t done) event.op event.response

/-- The phases of all threads. -/
def phases (c : Config Tid Input Op Resp S) (t : Tid) : Phase :=
  match c.threads t with
  | none => T.resting
  | some thread => T.phaseOf t thread.done

/-- From `phase` on, the program keeps to the discipline and ends with `Q`, whatever the
responses. -/
def Follows (t : Tid) : Phase → Prog Op Resp α → (Phase → α → Prop) → Prop
  | phase, .ret a, Q => Q phase a
  | phase, .call op next, Q => T.allowed t phase op ∧ ∀ r, Follows t (T.next t phase op r) (next r) Q

@[simp] theorem follows_ret (t : Tid) (phase : Phase) (a : α) (Q : Phase → α → Prop) :
    T.Follows t phase (.ret a) Q ↔ Q phase a := Iff.rfl

@[simp] theorem follows_call (t : Tid) (phase : Phase) (op : Op) (next : Resp op → Prog Op Resp α)
    (Q : Phase → α → Prop) :
    T.Follows t phase (.call op next) Q ↔
      T.allowed t phase op ∧ ∀ r, T.Follows t (T.next t phase op r) (next r) Q := Iff.rfl

/-- One action, and then the rest. -/
theorem follows_perform (t : Tid) (phase : Phase) (op : Op) (f : Resp op → Prog Op Resp β)
    (Q : Phase → β → Prop) :
    T.Follows t phase (Prog.perform op >>= f) Q ↔
      T.allowed t phase op ∧ ∀ r, T.Follows t (T.next t phase op r) (f r) Q := Iff.rfl

/-- Sequential composition. -/
theorem follows_bind (t : Tid) (phase : Phase) (p : Prog Op Resp α) (f : α → Prog Op Resp β)
    (Q : Phase → β → Prop) :
    T.Follows t phase (p >>= f) Q ↔
      T.Follows t phase p fun phase' a => T.Follows t phase' (f a) Q := by
  induction p generalizing phase with
  | ret a => rfl
  | call op next ih =>
    rw [Prog.call_bind, follows_call, follows_call]
    refine and_congr_right fun _ => forall_congr' fun r => ih r _

theorem Follows.mono {t : Tid} {phase : Phase} {p : Prog Op Resp α} {Q Q' : Phase → α → Prop}
    (h : T.Follows t phase p Q) (hQ : ∀ phase' a, Q phase' a → Q' phase' a) :
    T.Follows t phase p Q' := by
  induction p generalizing phase with
  | ret a => exact hQ _ _ h
  | call op next ih => exact ⟨h.1, fun r => ih r (h.2 r)⟩

variable [DecidableEq Tid]

/-- `K` is kept by everything a disciplined thread does, where the issued actions meet `side`. -/
structure Keeps (M : Machine Tid Input Op Resp S Env) (side : S → (Tid → Phase) → Tid → Op → Prop)
    (K : S → (Tid → Phase) → Prop) : Prop where
  enter : ∀ {s P t i}, K s P → P t = T.resting → M.admits s t i → K (M.enter t i s) P
  act : ∀ {s P t op} (env : Env), K s P → T.allowed t (P t) op → side s P t op →
    K (M.exec env op s).2 (Function.update P t (T.next t (P t) op (M.exec env op s).1))
  rest : ∀ {s P t}, K s P → T.mayRest (P t) → K s (Function.update P t T.resting)

/-- The next action of the thread that moves meets `side`. -/
def Meets (side : S → (Tid → Phase) → Tid → Op → Prop) (c : Config Tid Input Op Resp S) (t : Tid) :
    Prop :=
  ∀ i done op next, c.threads t = some ⟨i, done, .call op next⟩ → side c.shared (T.phases c) t op

theorem phases_update (s : S) (T' : Tid → Option (Thread Input Op Resp)) (t : Tid)
    (thread : Option (Thread Input Op Resp)) (phase : Phase)
    (h : (match thread with | none => T.resting | some th => T.phaseOf t th.done) = phase) (s' : S) :
    T.phases (⟨s', Function.update T' t thread⟩ : Config Tid Input Op Resp S) =
      Function.update (T.phases ⟨s, T'⟩) t phase := by
  funext t'
  by_cases ht : t' = t
  · subst ht
    rw [Function.update_self, ← h, phases]
    dsimp only
    rw [Function.update_self]
  · rw [Function.update_of_ne ht, phases, phases]
    dsimp only
    rw [Function.update_of_ne ht]

variable {T} {M : Machine Tid Input Op Resp S Env} {side : S → (Tid → Phase) → Tid → Op → Prop}
  {K : S → (Tid → Phase) → Prop} {s₀ : S}

variable (T) in
/-- Every program under way keeps to the discipline. -/
def Following (c : Config Tid Input Op Resp S) : Prop :=
  ∀ t thread, c.threads t = some thread →
    T.Follows t (T.phaseOf t thread.done) thread.rest fun phase _ => T.mayRest phase

omit [DecidableEq Tid] in
variable (T) in
theorem following_quiet (s : S) : T.Following (.quiet s : Config Tid Input Op Resp S) :=
  fun t thread ht => absurd ht (by simp [Config.quiet])

variable (T M) in
/-- What a move of thread `t` does to the shared state and the phases, if the thread is disciplined. -/
def Advances (s : S) (P : Tid → Phase) (t : Tid) :
    Move Input Op Resp → S → (Tid → Phase) → Prop
  | .begin i, s', P' => P t = T.resting ∧ M.admits s t i ∧ s' = M.enter t i s ∧ P' = P
  | .act event, s', P' => T.allowed t (P t) event.op ∧
      (∃ env, event.response = (M.exec env event.op s).1 ∧ s' = (M.exec env event.op s).2) ∧
      P' = Function.update P t (T.next t (P t) event.op event.response)
  | .finish, s', P' => T.mayRest (P t) ∧ s' = s ∧ P' = Function.update P t T.resting

/-- **The step rule.**  If every program follows the discipline, the programs under way keep following,
and a move does what the discipline says. -/
theorem Following.moves
    (hprograms : ∀ t i, T.Follows t T.resting (M.program t i) fun phase _ => T.mayRest phase)
    {c c' : Config Tid Input Op Resp S} {t : Tid} {move : Move Input Op Resp}
    (hfollowing : T.Following c) (h : Moves M c t move c') :
    T.Following c' ∧ T.Advances M c.shared (T.phases c) t move c'.shared (T.phases c') := by
  -- only thread `t` changes; the others keep what they have
  have others : ∀ {thread : Option (Thread Input Op Resp)} {s : S},
      (∀ th, thread = some th →
        T.Follows t (T.phaseOf t th.done) th.rest fun phase _ => T.mayRest phase) →
      T.Following ⟨s, Function.update c.threads t thread⟩ := by
    intro thread s hthread t' th hth
    change Function.update c.threads t thread t' = some th at hth
    by_cases ht : t' = t
    · subst ht
      rw [Function.update_self] at hth
      exact hthread th hth
    · rw [Function.update_of_ne ht] at hth
      exact hfollowing t' th hth
  cases h with
  | @begin i hidle hadmits =>
    have hphase : T.phases c t = T.resting := by rw [phases, hidle]
    refine ⟨others fun th hth => ?_, hphase, hadmits, rfl, ?_⟩
    · obtain rfl := Option.some.inj hth
      exact hprograms t i
    · rw [T.phases_update c.shared c.threads t _ T.resting rfl]
      show Function.update (T.phases c) t T.resting = T.phases c
      rw [← hphase, Function.update_eq_self]
  | @act i done op next env hthread =>
    have hphase : T.phases c t = T.phaseOf t done := by rw [phases, hthread]
    have hnow := hfollowing t _ hthread
    refine ⟨others fun th hth => ?_, ?_, ⟨env, rfl, rfl⟩, ?_⟩
    · obtain rfl := Option.some.inj hth
      exact hnow.2 _
    · rw [hphase]
      exact hnow.1
    · rw [T.phases_update c.shared c.threads t _ _ rfl, hphase]
      rfl
  | @finish i done hthread =>
    have hphase : T.phases c t = T.phaseOf t done := by rw [phases, hthread]
    have hnow := hfollowing t _ hthread
    refine ⟨others fun th hth => absurd hth (by simp), hphase ▸ hnow, rfl, ?_⟩
    exact T.phases_update c.shared c.threads t _ T.resting rfl c.shared

/-- A move that the discipline allows keeps `K`. -/
theorem Keeps.moves
    (hprograms : ∀ t i, T.Follows t T.resting (M.program t i) fun phase _ => T.mayRest phase)
    (hkeeps : T.Keeps M side K) {c c' : Config Tid Input Op Resp S} {t : Tid}
    {move : Move Input Op Resp} (hfollowing : T.Following c) (hC : T.Meets side c t)
    (hK : K c.shared (T.phases c)) (h : Moves M c t move c') : K c'.shared (T.phases c') := by
  have hadvances := (hfollowing.moves hprograms h).2
  cases h with
  | begin hidle hadmits =>
    obtain ⟨hphase, -, -, hphases⟩ := hadvances
    rw [hphases]
    exact hkeeps.enter hK hphase hadmits
  | act env hthread =>
    obtain ⟨hallowed, -, hphases⟩ := hadvances
    rw [hphases]
    exact hkeeps.act env hK hallowed (hC _ _ _ _ hthread)
  | finish hthread =>
    obtain ⟨hrest, -, hphases⟩ := hadvances
    rw [hphases]
    exact hkeeps.rest hK hrest

/-- **The invariant rule.**  If every program follows the discipline and `K` is kept by it, then `K`
holds in every state that steps meeting `side` reach, and every program under way keeps following. -/
theorem invariant (hprograms : ∀ t i, T.Follows t T.resting (M.program t i) fun phase _ => T.mayRest phase)
    (hkeeps : T.Keeps M side K) (hinit : K s₀ fun _ => T.resting)
    {c : Config Tid Input Op Resp S} (h : Reachable M (T.Meets side) s₀ c) :
    K c.shared (T.phases c) ∧
      ∀ t thread, c.threads t = some thread →
        T.Follows t (T.phaseOf t thread.done) thread.rest fun phase _ => T.mayRest phase := by
  induction h with
  | init => exact ⟨hinit, T.following_quiet s₀⟩
  | step _ hC hstep ih =>
    obtain ⟨move, hmove⟩ := hstep.moves
    exact ⟨hkeeps.moves hprograms ih.2 hC ih.1 hmove, (Following.moves hprograms ih.2 hmove).1⟩

omit [DecidableEq Tid] in
/-- Where nobody is inside a program, everybody is resting. -/
theorem phases_of_quiescent {c : Config Tid Input Op Resp S} (h : c.Quiescent) :
    T.phases c = fun _ => T.resting := by
  funext t
  rw [phases, h t]

/-! ### Two disciplines at once -/

section Both

variable {Phase' : Type}

/-- Both disciplines, side by side. -/
def both (T : Typestate Tid Op Resp Phase) (U : Typestate Tid Op Resp Phase') :
    Typestate Tid Op Resp (Phase × Phase') where
  resting := (T.resting, U.resting)
  next t phase op r := (T.next t phase.1 op r, U.next t phase.2 op r)
  allowed t phase op := T.allowed t phase.1 op ∧ U.allowed t phase.2 op
  mayRest phase := T.mayRest phase.1 ∧ U.mayRest phase.2

variable {U : Typestate Tid Op Resp Phase'}

omit [DecidableEq Tid] in
/-- A program that keeps to each discipline keeps to both. -/
theorem Follows.both {t : Tid} {phase : Phase} {phase' : Phase'} {p : Prog Op Resp α}
    {Q : Phase → α → Prop} {Q' : Phase' → α → Prop} (h : T.Follows t phase p Q)
    (h' : U.Follows t phase' p Q') :
    (T.both U).Follows t (phase, phase') p fun x a => Q x.1 a ∧ Q' x.2 a := by
  induction p generalizing phase phase' with
  | ret a => exact ⟨h, h'⟩
  | call op next ih => exact ⟨⟨h.1, h'.1⟩, fun r => ih r (h.2 r) (h'.2 r)⟩

omit [DecidableEq Tid] in
theorem phaseOf_both (t : Tid) (done : List (Event Op Resp)) :
    (T.both U).phaseOf t done = (T.phaseOf t done, U.phaseOf t done) := by
  induction done with
  | nil => rfl
  | cons event done ih =>
    rw [phaseOf, ih]
    rfl

omit [DecidableEq Tid] in
theorem phases_both (c : Config Tid Input Op Resp S) :
    (T.both U).phases c = fun t => (T.phases c t, U.phases c t) := by
  funext t
  cases hthread : c.threads t with
  | none =>
    simp only [phases, hthread]
    rfl
  | some thread => simp only [phases, hthread, phaseOf_both]

/-- The phases of one discipline move as they would alone. -/
theorem update_fst (P : Tid → Phase × Phase') (t : Tid) (phase : Phase × Phase') :
    (fun t' => (Function.update P t phase t').1) = Function.update (fun t' => (P t').1) t phase.1 := by
  funext t'
  by_cases ht : t' = t
  · subst ht
    rw [Function.update_self, Function.update_self]
  · rw [Function.update_of_ne ht, Function.update_of_ne ht]

/-- What one discipline keeps, both keep. -/
theorem Keeps.fst {K : S → (Tid → Phase) → Prop} (h : T.Keeps M (fun _ _ _ _ => True) K) :
    (T.both U).Keeps M (fun _ _ _ _ => True) fun s P => K s fun t => (P t).1 where
  enter hK hphase hadmits := h.enter hK (congrArg Prod.fst hphase) hadmits
  act env hK hallowed _ := by
    rw [update_fst]
    exact h.act env hK hallowed.1 trivial
  rest hK hrest := by
    rw [update_fst]
    exact h.rest hK hrest.1

end Both

end Typestate

end AtomicProgram
