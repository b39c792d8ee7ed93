import ChatService.Foundation.Histories
import Mathlib.Data.List.Basic

/-!
# The event loop

muduo's `EventLoop`: one thread polls its channels, handles those that are active, and then calls the functors
that have been queued meanwhile, by itself or by any other thread.  A thread that queues a functor takes a lock
for that and then wakes the loop by writing to its eventfd; the loop's own thread does so only when it is calling
functors.  Before `loop()` that thread queues nothing here: it would not wake the loop up, and the first `poll`
would let the functor wait.

* `LoopOp` — the atomic actions, and `queueInLoop`, `handleActive`, `doPendingFunctors`, `loop`.
* `LoopUser` — the callbacks around a loop and what the other threads do; `LoopUser.machine`.
* `looping` — the discipline: who owes the loop a wakeup, and how far the loop has come.
* `functors_are_called_in_order` — every functor is called once, in the order of the queue, and the loop never
  sleeps on one.
-/

namespace ChatService.Muduo

open AtomicProgram

/-- What a callback may do: an action of its own, or to queue a functor. -/
inductive CallbackOp (Functor Own : Type) where
  | own (op : Own)
  | queueInLoop (functor : Functor)

abbrev CallbackOp.Response {Functor Own : Type} (Resp : Own → Type) : CallbackOp Functor Own → Type
  | .own op => Resp op
  | .queueInLoop _ => Unit

/-- What `poll` may find active: the channel of the eventfd, or another one. -/
inductive ActiveChannel (Channel : Type) where
  | wakeup
  | other (channel : Channel)

/-- The actions of the loop and of those who use it.  `push` and `swap` hold the mutex. -/
inductive LoopOp (Functor Own : Type) where
  | poll
  | handleRead
  | push (functor : Functor)
  | wakeup
  | callingPendingFunctors
  | setCallingPendingFunctors (calling : Bool)
  | swap
  | call (functor : Functor)
  | own (op : Own)

abbrev LoopOp.Response (Channel : Type) {Functor Own : Type} (Resp : Own → Type) : LoopOp Functor Own → Type
  | .poll => List (ActiveChannel Channel)
  | .callingPendingFunctors => Bool
  | .swap => List Functor
  | .own op => Resp op
  | .handleRead | .push _ | .wakeup | .setCallingPendingFunctors _ | .call _ => Unit

/-- The state of a loop, and of what its callbacks work on. -/
structure EventLoop (Functor S : Type) where
  pendingFunctors : List Functor
  callingPendingFunctors : Bool
  /-- The counter of the eventfd. -/
  wakeups : ℕ
  own : S

/-- A loop that has not been used yet. -/
def EventLoop.initial {Functor S : Type} (s : S) : EventLoop Functor S := ⟨[], false, 0, s⟩

variable {Tid Input Channel Functor Own S Env : Type} {Resp : Own → Type}

/-! ### The code -/

/-- The program of a callback. -/
abbrev Callback (Functor : Type) {Own : Type} (Resp : Own → Type) : Type :=
  Prog (CallbackOp Functor Own) (CallbackOp.Response Resp) Unit

/-- A program of the loop, or of a thread that uses it. -/
abbrev LoopProg (Channel Functor : Type) {Own : Type} (Resp : Own → Type) (α : Type) : Type :=
  Prog (LoopOp Functor Own) (LoopOp.Response Channel Resp) α

/-- One action. -/
abbrev act (op : LoopOp Functor Own) : LoopProg Channel Functor Resp (op.Response Channel Resp) := Prog.perform op

/-- `EventLoop::queueInLoop`. -/
def queueInLoop (isInLoopThread : Bool) (functor : Functor) : LoopProg Channel Functor Resp Unit := do
  act (.push functor)
  if isInLoopThread = false then act .wakeup
  else
    let calling ← act .callingPendingFunctors
    if calling then act .wakeup else pure ()

/-- A callback, in the loop's thread or in another one. -/
def callback (isInLoopThread : Bool) : Callback Functor Resp → LoopProg Channel Functor Resp Unit
  | .ret a => .ret a
  | .call (.own op) next => .call (.own op) fun r => callback isInLoopThread (next r)
  | .call (.queueInLoop functor) next =>
    queueInLoop isInLoopThread functor >>= fun r => callback isInLoopThread (next r)

/-- The callbacks around a loop, and what other threads do. -/
structure LoopUser (Tid Input Channel Functor Own : Type) (Resp : Own → Type) (S Env : Type) where
  exec : Env → (op : Own) → S → Resp op × S
  handleEvent : Channel → Callback Functor Resp
  call : Functor → Callback Functor Resp
  outside : Tid → Input → Callback Functor Resp

section Code

variable (U : LoopUser Tid Input Channel Functor Own Resp S Env)

/-- The active channels handle their events. -/
def handleActive : List (ActiveChannel Channel) → LoopProg Channel Functor Resp Unit
  | [] => pure ()
  | .wakeup :: active => do
    act .handleRead
    handleActive active
  | .other channel :: active => do
    callback true (U.handleEvent channel)
    handleActive active

def callAll : List Functor → LoopProg Channel Functor Resp Unit
  | [] => pure ()
  | functor :: functors => do
    act (.call functor)
    callback true (U.call functor)
    callAll functors

/-- `EventLoop::doPendingFunctors`. -/
def doPendingFunctors : LoopProg Channel Functor Resp Unit := do
  act (.setCallingPendingFunctors true)
  let functors ← act .swap
  callAll U functors
  act (.setCallingPendingFunctors false)

/-- One turn of `EventLoop::loop`. -/
def loop : LoopProg Channel Functor Resp Unit := do
  let active ← act .poll
  handleActive U active
  doPendingFunctors U

/-- What the kernel decides: the channels that `poll` reports, and whatever the callbacks ask it for. -/
structure LoopEnv (Channel Env : Type) where
  active : List (ActiveChannel Channel)
  own : Env

def LoopUser.execLoop (env : LoopEnv Channel Env) :
    (op : LoopOp Functor Own) → EventLoop Functor S → op.Response Channel Resp × EventLoop Functor S
  | .poll, s => (env.active, s)
  | .handleRead, s => ((), { s with wakeups := 0 })
  | .push functor, s => ((), { s with pendingFunctors := s.pendingFunctors ++ [functor] })
  | .wakeup, s => ((), { s with wakeups := s.wakeups + 1 })
  | .callingPendingFunctors, s => (s.callingPendingFunctors, s)
  | .setCallingPendingFunctors calling, s => ((), { s with callingPendingFunctors := calling })
  | .swap, s => (s.pendingFunctors, { s with pendingFunctors := [] })
  | .call _, s => ((), s)
  | .own op, s => ((U.exec env.own op s.own).1, { s with own := (U.exec env.own op s.own).2 })

/-- The loop's thread, `none`, takes one turn after another, and queues functors from callbacks only; the others do
what they like. -/
def LoopUser.machine : Machine (Option Tid) (Option Input) (LoopOp Functor Own)
    (LoopOp.Response Channel Resp) (EventLoop Functor S) (LoopEnv Channel Env) where
  exec env op s := U.execLoop env op s
  program
    | none, _ => loop U
    | some t, some i => callback false (U.outside t i)
    | some _, none => .ret ()
  admits _ t i := t.isSome = i.isSome
  enter _ _ s := s

end Code

/-! ### The discipline -/

/-- How far the loop has come in its turn. -/
inductive Stage (Functor : Type) where
  | polling
  | handling
  | swapping
  | calling (left : List Functor)

/-- The functors that the loop has taken and not called yet. -/
def Stage.left : Stage Functor → List Functor
  | .calling left => left
  | .polling | .handling | .swapping => []

/-- Where a thread is: how far it has come, if it is the loop's, and whether it has queued a functor and has not
seen to the wakeup yet. -/
structure LoopPhase (Functor : Type) where
  stage : Stage Functor
  owes : Bool

section Discipline

variable (Tid Functor Own Channel Resp)

/-- The discipline of the loop's thread and of the others. -/
def looping : Typestate (Option Tid) (LoopOp Functor Own) (LoopOp.Response Channel Resp)
    (LoopPhase Functor) where
  resting := ⟨.polling, false⟩
  next
    | _, _, .poll, _ => ⟨.handling, false⟩
    | _, phase, .push _, _ => ⟨phase.stage, true⟩
    | _, phase, .wakeup, _ => ⟨phase.stage, false⟩
    | _, phase, .callingPendingFunctors, calling => ⟨phase.stage, (show Bool from calling) && phase.owes⟩
    | _, _, .setCallingPendingFunctors true, _ => ⟨.swapping, false⟩
    | _, _, .setCallingPendingFunctors false, _ => ⟨.polling, false⟩
    | _, _, .swap, functors => ⟨.calling functors, false⟩
    | _, ⟨.calling (_ :: left), owes⟩, .call _, _ => ⟨.calling left, owes⟩
    | _, phase, _, _ => phase
  allowed
    | t, phase, .poll => t = none ∧ phase = ⟨.polling, false⟩
    | t, phase, .handleRead => t = none ∧ phase = ⟨.handling, false⟩
    | _, phase, .push _ => phase.owes = false
    | _, phase, .wakeup => phase.owes = true
    | t, phase, .callingPendingFunctors => t = none ∧ phase.owes = true ∧ phase.stage ≠ .polling
    | t, phase, .setCallingPendingFunctors true => t = none ∧ phase = ⟨.handling, false⟩
    | t, phase, .setCallingPendingFunctors false => t = none ∧ phase = ⟨.calling [], false⟩
    | t, phase, .swap => t = none ∧ phase = ⟨.swapping, false⟩
    | t, phase, .call functor => t = none ∧ ∃ left, phase = ⟨.calling (functor :: left), false⟩
    | _, phase, .own _ => phase.owes = false
  mayRest phase := phase = ⟨.polling, false⟩

end Discipline

section Programs

variable {t : Option Tid} {phase : LoopPhase Functor}

theorem follows_queueInLoop {isInLoopThread : Bool} (functor : Functor) (howes : phase.owes = false)
    (hloop : isInLoopThread = true → t = none ∧ phase.stage ≠ .polling) :
    (looping Tid Channel Functor Own Resp).Follows t phase (queueInLoop isInLoopThread functor)
      fun phase' _ => phase' = phase := by
  obtain ⟨stage, owes⟩ := phase
  obtain rfl : owes = false := howes
  rw [queueInLoop, Typestate.follows_perform]
  refine ⟨rfl, fun _ => ?_⟩
  cases isInLoopThread with
  | false => exact ⟨rfl, fun _ => rfl⟩
  | true =>
    obtain ⟨rfl, hstage⟩ := hloop rfl
    rw [if_neg (by decide), Typestate.follows_perform]
    refine ⟨⟨rfl, rfl, hstage⟩, fun calling => ?_⟩
    cases calling with
    | true => exact ⟨rfl, fun _ => rfl⟩
    | false => exact rfl

theorem follows_callback {isInLoopThread : Bool} (p : Callback Functor Resp) (howes : phase.owes = false)
    (hloop : isInLoopThread = true → t = none ∧ phase.stage ≠ .polling) :
    (looping Tid Channel Functor Own Resp).Follows t phase (callback isInLoopThread p)
      fun phase' _ => phase' = phase := by
  induction p with
  | ret a => exact rfl
  | call op next ih =>
    cases op with
    | own op => exact ⟨howes, fun r => ih r⟩
    | queueInLoop functor =>
      rw [callback, Typestate.follows_bind]
      refine (follows_queueInLoop functor howes hloop).mono _ ?_
      rintro phase' r rfl
      exact ih r

/-- A callback in the loop's thread, in the middle of a turn. -/
theorem follows_inLoop {stage : Stage Functor} (p : Callback Functor Resp) (hstage : stage ≠ .polling) :
    (looping Tid Channel Functor Own Resp).Follows none ⟨stage, false⟩ (callback true p)
      fun phase _ => phase = ⟨stage, false⟩ :=
  follows_callback p rfl fun _ => ⟨rfl, hstage⟩

variable (U : LoopUser Tid Input Channel Functor Own Resp S Env)

theorem follows_handleActive (active : List (ActiveChannel Channel)) :
    (looping Tid Channel Functor Own Resp).Follows none ⟨.handling, false⟩ (handleActive U active)
      fun phase _ => phase = ⟨.handling, false⟩ := by
  induction active with
  | nil => exact rfl
  | cons channel active ih =>
    cases channel with
    | wakeup => exact ⟨⟨rfl, rfl⟩, fun _ => ih⟩
    | other channel =>
      rw [handleActive, Typestate.follows_bind]
      refine (follows_inLoop (U.handleEvent channel) (by simp)).mono _ ?_
      rintro phase _ rfl
      exact ih

theorem follows_callAll (functors : List Functor) :
    (looping Tid Channel Functor Own Resp).Follows none ⟨.calling functors, false⟩ (callAll U functors)
      fun phase _ => phase = ⟨.calling [], false⟩ := by
  induction functors with
  | nil => exact rfl
  | cons functor functors ih =>
    rw [callAll, Typestate.follows_perform]
    refine ⟨⟨rfl, functors, rfl⟩, fun _ => ?_⟩
    rw [Typestate.follows_bind]
    refine (follows_inLoop (U.call functor) (show Stage.calling functors ≠ .polling by simp)).mono _ ?_
    rintro phase _ rfl
    exact ih

theorem follows_doPendingFunctors :
    (looping Tid Channel Functor Own Resp).Follows none ⟨.handling, false⟩ (doPendingFunctors U)
      fun phase _ => phase = ⟨.polling, false⟩ := by
  rw [doPendingFunctors, Typestate.follows_perform]
  refine ⟨⟨rfl, rfl⟩, fun _ => ?_⟩
  rw [Typestate.follows_perform]
  refine ⟨⟨rfl, rfl⟩, fun functors => ?_⟩
  rw [Typestate.follows_bind]
  refine (follows_callAll U functors).mono _ ?_
  rintro phase _ rfl
  exact ⟨⟨rfl, rfl⟩, fun _ => rfl⟩

theorem follows_loop :
    (looping Tid Channel Functor Own Resp).Follows none ⟨.polling, false⟩ (loop U)
      fun phase _ => phase = ⟨.polling, false⟩ := by
  rw [loop, Typestate.follows_perform]
  refine ⟨⟨rfl, rfl⟩, fun active => ?_⟩
  rw [Typestate.follows_bind]
  refine (follows_handleActive U active).mono _ ?_
  rintro phase _ rfl
  exact follows_doPendingFunctors U

/-- Every thread keeps to the discipline. -/
theorem machine_follows (t : Option Tid) (i : Option Input) :
    (looping Tid Channel Functor Own Resp).Follows t (looping Tid Channel Functor Own Resp).resting
      (U.machine.program t i) fun phase _ => (looping Tid Channel Functor Own Resp).mayRest phase := by
  match t, i with
  | none, i => exact follows_loop U
  | some t, some i => exact follows_callback (U.outside t i) rfl (by simp)
  | some t, none => exact rfl

end Programs

/-! ### Runs -/

/-- The history of a loop. -/
abbrev LoopHistory (Tid Input Channel Functor : Type) {Own : Type} (Resp : Own → Type) (S : Type) : Type :=
  List (Entry (Option Tid) (Option Input) (LoopOp Functor Own) (LoopOp.Response Channel Resp) (EventLoop Functor S))

section Runs

/-- The functors that an entry queues, … -/
def queues (entry : Entry (Option Tid) (Option Input) (LoopOp Functor Own) (LoopOp.Response Channel Resp)
    (EventLoop Functor S)) : List Functor :=
  match entry.move with
  | .act ⟨.push functor, _⟩ => [functor]
  | _ => []

/-- … takes over for the loop, … -/
def takes (entry : Entry (Option Tid) (Option Input) (LoopOp Functor Own) (LoopOp.Response Channel Resp)
    (EventLoop Functor S)) : List Functor :=
  match entry.move with
  | .act ⟨.swap, functors⟩ => functors
  | _ => []

/-- … and calls. -/
def calls (entry : Entry (Option Tid) (Option Input) (LoopOp Functor Own) (LoopOp.Response Channel Resp)
    (EventLoop Functor S)) : List Functor :=
  match entry.move with
  | .act ⟨.call functor, _⟩ => [functor]
  | _ => []

/-- All functors that have been queued, in order. -/
def queued (history : LoopHistory Tid Input Channel Functor Resp S) : List Functor := history.flatMap queues

def taken (history : LoopHistory Tid Input Channel Functor Resp S) : List Functor := history.flatMap takes

def called (history : LoopHistory Tid Input Channel Functor Resp S) : List Functor := history.flatMap calls

/-- The loop is calling functors, or about to. -/
def Stage.Calls : Stage Functor → Prop
  | .swapping | .calling _ => True
  | .polling | .handling => False

/-- The loop will not look at the queue before it polls. -/
def Stage.MayPoll : Stage Functor → Prop
  | .polling | .calling _ => True
  | .handling | .swapping => False

/-- What holds in every run: where the functors are that have been queued, and that somebody sees to the wakeup
when the loop may poll while a functor is waiting. -/
structure Looping (history : LoopHistory Tid Input Channel Functor Resp S) (s : EventLoop Functor S)
    (P : Option Tid → LoopPhase Functor) : Prop where
  calledThenLeft : called history ++ (P none).stage.left = taken history
  takenThenPending : taken history ++ s.pendingFunctors = queued history
  calling : (P none).stage.Calls → s.callingPendingFunctors = true
  awake : (P none).stage.MayPoll → s.pendingFunctors = [] ∨ 0 < s.wakeups ∨ ∃ t, (P t).owes = true

variable [DecidableEq Tid] {history : LoopHistory Tid Input Channel Functor Resp S} {s : EventLoop Functor S}
  {P : Option Tid → LoopPhase Functor} {t : Option Tid}

/-- A thread that owes nothing may go on: whoever owes a wakeup still does. -/
theorem owes_update (howes : (P t).owes = false) (phase : LoopPhase Functor) (h : ∃ t', (P t').owes = true) :
    ∃ t', (Function.update P t phase t').owes = true := by
  obtain ⟨t', ht'⟩ := h
  have hne : t' ≠ t := by
    rintro rfl
    rw [howes] at ht'
    exact absurd ht' (by simp)
  exact ⟨t', by rwa [Function.update_of_ne hne]⟩

/-- A thread that stays in its stage leaves the loop in its own. -/
theorem stage_update (owes : Bool) :
    (Function.update P t ⟨(P t).stage, owes⟩ none).stage = (P none).stage := by
  by_cases ht : none = t
  · subst ht
    rw [Function.update_self]
  · rw [Function.update_of_ne ht]

section

variable (entry : Entry (Option Tid) (Option Input) (LoopOp Functor Own) (LoopOp.Response Channel Resp)
  (EventLoop Functor S))

omit [DecidableEq Tid] in
theorem queued_concat : queued (history ++ [entry]) = queued history ++ queues entry := by simp [queued]

omit [DecidableEq Tid] in
theorem taken_concat : taken (history ++ [entry]) = taken history ++ takes entry := by simp [taken]

omit [DecidableEq Tid] in
theorem called_concat : called (history ++ [entry]) = called history ++ calls entry := by simp [called]

end

section Acts

variable {U : LoopUser Tid Input Channel Functor Own Resp S Env} (env : LoopEnv Channel Env) {op : LoopOp Functor Own}

theorem called_act (h : called history ++ (P none).stage.left = taken history)
    (hallowed : (looping Tid Channel Functor Own Resp).allowed t (P t) op) :
    called (history ++ [⟨t, s, .act ⟨op, (U.execLoop env op s).1⟩⟩]) ++
        (Function.update P t ((looping Tid Channel Functor Own Resp).next t (P t) op (U.execLoop env op s).1)
          none).stage.left =
      taken (history ++ [⟨t, s, .act ⟨op, (U.execLoop env op s).1⟩⟩]) := by
  rw [called_concat, taken_concat]
  cases op with
  | poll =>
    obtain ⟨rfl, hphase⟩ := hallowed
    rw [hphase] at h
    simpa [calls, takes, looping, Stage.left] using h
  | setCallingPendingFunctors calling =>
    cases calling with
    | true =>
      obtain ⟨rfl, hphase⟩ := hallowed
      rw [hphase] at h
      simpa [calls, takes, looping, Stage.left] using h
    | false =>
      obtain ⟨rfl, hphase⟩ := hallowed
      rw [hphase] at h
      simpa [calls, takes, looping, Stage.left] using h
  | swap =>
    obtain ⟨rfl, hphase⟩ := hallowed
    rw [hphase] at h
    simpa [calls, takes, looping, Stage.left, LoopUser.execLoop] using h
  | call functor =>
    obtain ⟨rfl, left, hphase⟩ := hallowed
    rw [hphase] at h
    simpa [calls, takes, looping, Stage.left, hphase] using h
  | push functor => simpa [calls, takes, looping, stage_update] using h
  | wakeup => simpa [calls, takes, looping, stage_update] using h
  | callingPendingFunctors => simpa [calls, takes, looping, stage_update] using h
  | handleRead => simpa [calls, takes, looping] using h
  | own op => simpa [calls, takes, looping] using h

omit [DecidableEq Tid] in
theorem taken_act (h : taken history ++ s.pendingFunctors = queued history) :
    taken (history ++ [⟨t, s, .act ⟨op, (U.execLoop env op s).1⟩⟩]) ++ (U.execLoop env op s).2.pendingFunctors =
      queued (history ++ [⟨t, s, .act ⟨op, (U.execLoop env op s).1⟩⟩]) := by
  rw [taken_concat, queued_concat]
  cases op with
  | push functor => simp [takes, queues, LoopUser.execLoop, ← h]
  | swap => simpa [takes, queues, LoopUser.execLoop] using h
  | _ => simpa [takes, queues, LoopUser.execLoop] using h

theorem calling_act (h : (P none).stage.Calls → s.callingPendingFunctors = true)
    (hallowed : (looping Tid Channel Functor Own Resp).allowed t (P t) op) :
    (Function.update P t ((looping Tid Channel Functor Own Resp).next t (P t) op (U.execLoop env op s).1)
        none).stage.Calls → (U.execLoop env op s).2.callingPendingFunctors = true := by
  cases op with
  | poll =>
    obtain ⟨rfl, hphase⟩ := hallowed
    simp [looping, Stage.Calls]
  | setCallingPendingFunctors calling =>
    cases calling with
    | true => simp [LoopUser.execLoop]
    | false =>
      obtain ⟨rfl, hphase⟩ := hallowed
      simp [looping, Stage.Calls]
  | swap =>
    obtain ⟨rfl, hphase⟩ := hallowed
    rw [hphase] at h
    simpa [looping, LoopUser.execLoop, Stage.Calls] using h
  | call functor =>
    obtain ⟨rfl, left, hphase⟩ := hallowed
    rw [hphase] at h
    simpa [looping, LoopUser.execLoop, Stage.Calls, hphase] using h
  | push functor => simpa [looping, LoopUser.execLoop, stage_update] using h
  | wakeup => simpa [looping, LoopUser.execLoop, stage_update] using h
  | callingPendingFunctors => simpa [looping, LoopUser.execLoop, stage_update] using h
  | handleRead => simpa [looping, LoopUser.execLoop] using h
  | own op => simpa [looping, LoopUser.execLoop] using h

/-- In the middle of its calls the loop learns that it has to wake itself up. -/
theorem awake_act (h : (P none).stage.MayPoll → s.pendingFunctors = [] ∨ 0 < s.wakeups ∨ ∃ t, (P t).owes = true)
    (hcalling : (P none).stage.Calls → s.callingPendingFunctors = true)
    (hallowed : (looping Tid Channel Functor Own Resp).allowed t (P t) op) :
    (Function.update P t ((looping Tid Channel Functor Own Resp).next t (P t) op (U.execLoop env op s).1)
        none).stage.MayPoll →
      (U.execLoop env op s).2.pendingFunctors = [] ∨ 0 < (U.execLoop env op s).2.wakeups ∨
        ∃ t', (Function.update P t ((looping Tid Channel Functor Own Resp).next t (P t) op
          (U.execLoop env op s).1) t').owes = true := by
  intro hmay
  cases op with
  | poll =>
    obtain ⟨rfl, hphase⟩ := hallowed
    simp [looping, Stage.MayPoll] at hmay
  | handleRead =>
    obtain ⟨rfl, hphase⟩ := hallowed
    simp [looping, Stage.MayPoll, hphase] at hmay
  | push functor => exact .inr (.inr ⟨t, by simp [looping]⟩)
  | wakeup => exact .inr (.inl (by simp [LoopUser.execLoop]))
  | callingPendingFunctors =>
    obtain ⟨rfl, howes, hstage⟩ := hallowed
    simp only [looping, stage_update] at hmay
    have hflag : s.callingPendingFunctors = true := by
      apply hcalling
      cases hstage' : (P none).stage with
      | polling => exact absurd hstage' hstage
      | calling left => trivial
      | handling => simp [hstage', Stage.MayPoll] at hmay
      | swapping => simp [hstage', Stage.MayPoll] at hmay
    exact .inr (.inr ⟨none, by simp [looping, LoopUser.execLoop, hflag, howes]⟩)
  | setCallingPendingFunctors calling =>
    cases calling with
    | true =>
      obtain ⟨rfl, hphase⟩ := hallowed
      simp [looping, Stage.MayPoll] at hmay
    | false =>
      obtain ⟨rfl, hphase⟩ := hallowed
      rw [hphase] at h
      exact (h trivial).imp_right (.imp_right (owes_update (by rw [hphase]) _))
  | swap => exact .inl rfl
  | call functor =>
    obtain ⟨rfl, left, hphase⟩ := hallowed
    rw [hphase] at h
    exact (h trivial).imp_right (.imp_right (owes_update (by rw [hphase]) _))
  | own op =>
    simp only [looping, Function.update_eq_self] at hmay ⊢
    exact h hmay

end Acts

/-- Everything a thread does keeps it. -/
theorem Looping.moves {U : LoopUser Tid Input Channel Functor Own Resp S Env}
    {move : Move (Option Input) (LoopOp Functor Own) (LoopOp.Response Channel Resp)} {s' : EventLoop Functor S}
    {P' : Option Tid → LoopPhase Functor} (h : Looping history s P)
    (hadvances : (looping Tid Channel Functor Own Resp).Advances U.machine s P t move s' P') :
    Looping (history ++ [⟨t, s, move⟩]) s' P' := by
  cases move with
  | begin i =>
    obtain ⟨-, -, rfl, rfl⟩ := hadvances
    exact ⟨by simpa [called_concat, taken_concat, calls, takes] using h.calledThenLeft,
      by simpa [taken_concat, queued_concat, takes, queues] using h.takenThenPending, h.calling, h.awake⟩
  | act event =>
    obtain ⟨hallowed, ⟨env, hresponse, rfl⟩, rfl⟩ := hadvances
    obtain ⟨op, response⟩ := event
    change response = (U.execLoop env op s).1 at hresponse
    subst hresponse
    exact ⟨called_act env h.calledThenLeft hallowed, taken_act env h.takenThenPending,
      calling_act env h.calling hallowed, awake_act env h.awake h.calling hallowed⟩
  | finish =>
    obtain ⟨hrest, rfl, rfl⟩ := hadvances
    have hsame : Function.update P t (looping Tid Channel Functor Own Resp).resting = P := by
      change P t = (looping Tid Channel Functor Own Resp).resting at hrest
      rw [← hrest, Function.update_eq_self]
    rw [hsame]
    exact ⟨by simpa [called_concat, taken_concat, calls, takes] using h.calledThenLeft,
      by simpa [taken_concat, queued_concat, takes, queues] using h.takenThenPending, h.calling, h.awake⟩

variable {U : LoopUser Tid Input Channel Functor Own Resp S Env} {s₀ : S}
  {c : Config (Option Tid) (Option Input) (LoopOp Functor Own) (LoopOp.Response Channel Resp) (EventLoop Functor S)}

theorem looping_of_traced (h : Traced U.machine (.initial s₀) history c) :
    Looping history c.shared ((looping Tid Channel Functor Own Resp).phases c) ∧
      (looping Tid Channel Functor Own Resp).Following c :=
  Typestate.history_invariant (machine_follows U)
    (⟨rfl, rfl, fun h => h.elim, fun _ => .inl rfl⟩ : Looping [] (.initial s₀) fun _ => ⟨.polling, false⟩)
    (fun h hadvances => h.moves hadvances) h

omit [DecidableEq Tid] in
/-- Another thread that owes the loop a wakeup is about to write it. -/
theorem wakes_of_owes {t : Tid} (hfollowing : (looping Tid Channel Functor Own Resp).Following c)
    (howes : ((looping Tid Channel Functor Own Resp).phases c (some t)).owes = true) :
    ∃ i done next, c.threads (some t) = some ⟨i, done, .call .wakeup next⟩ := by
  rw [Typestate.phases] at howes
  cases hthread : c.threads (some t) with
  | none =>
    rw [hthread] at howes
    exact absurd howes (by simp [looping])
  | some thread =>
    obtain ⟨i, done, rest⟩ := thread
    rw [hthread] at howes
    dsimp only at howes
    have hfollows := hfollowing (some t) _ hthread
    generalize hphase : (looping Tid Channel Functor Own Resp).phaseOf (some t) done = phase at howes hfollows
    cases rest with
    | ret a =>
      have hrest : phase = ⟨.polling, false⟩ := hfollows
      rw [hrest] at howes
      exact absurd howes (by simp)
    | call op next =>
      obtain ⟨hallowed, -⟩ := hfollows
      cases op with
      | wakeup => exact ⟨i, done, next, rfl⟩
      | push functor => exact absurd (howes.symm.trans hallowed) (by simp)
      | own op => exact absurd (howes.symm.trans hallowed) (by simp)
      | setCallingPendingFunctors calling => cases calling <;> exact absurd hallowed.1 (by simp)
      | _ => exact absurd hallowed.1 (by simp)

/-- The loop's thread has done nothing yet in its turn, so that it may sleep in `poll`. -/
def MaySleep (c : Config (Option Tid) (Option Input) (LoopOp Functor Own) (LoopOp.Response Channel Resp)
    (EventLoop Functor S)) : Prop :=
  ∀ turn, c.threads none = some turn → turn.done = []

omit [DecidableEq Tid] in
theorem polling_of_maySleep (h : MaySleep c) :
    (looping Tid Channel Functor Own Resp).phases c none = ⟨.polling, false⟩ := by
  rw [Typestate.phases]
  cases hthread : c.threads none with
  | none => rfl
  | some turn =>
    obtain ⟨i, done, rest⟩ := turn
    obtain rfl : done = [] := h _ hthread
    rfl

/-- **Functors are called in order, and the loop never sleeps on one.**  In every run of a loop whose own thread
queues from its callbacks only, whatever the threads do and however they interleave: the functors that have been
called, then those that the loop has taken, then those in the queue are all that have been queued, in order; whatever
had been queued when the loop took over the queue has been called by the end of its turn; and when a functor is
waiting while the loop may sleep in `poll`, either the eventfd has been written or another thread is about to write
it. -/
theorem functors_are_called_in_order (U : LoopUser Tid Input Channel Functor Own Resp S Env) (s₀ : S)
    {history : LoopHistory Tid Input Channel Functor Resp S}
    {c : Config (Option Tid) (Option Input) (LoopOp Functor Own) (LoopOp.Response Channel Resp)
      (EventLoop Functor S)}
    (hrun : Traced U.machine (.initial s₀) history c) :
    (∃ left, called history ++ left ++ c.shared.pendingFunctors = queued history) ∧
      (∀ before s functors after, history = before ++ ⟨none, s, .act ⟨.swap, functors⟩⟩ :: after →
        MaySleep c → queued before <+: called history) ∧
      (MaySleep c → c.shared.pendingFunctors ≠ [] →
        0 < c.shared.wakeups ∨ ∃ t i done next, c.threads (some t) = some ⟨i, done, .call .wakeup next⟩) := by
  obtain ⟨hlooping, hfollowing⟩ := looping_of_traced hrun
  refine ⟨⟨_, by rw [hlooping.calledThenLeft, hlooping.takenThenPending]⟩, ?_, ?_⟩
  · intro before s functors after hhistory hsleep
    obtain ⟨c₁, c₂, hbefore, hshared, hmove⟩ := hrun.split hhistory
    -- the whole queue was taken
    have htaken : taken before ++ functors = queued before := by
      have htakes := (looping_of_traced hbefore).1.takenThenPending
      cases hmove with
      | act env hthread => exact htakes
    have hall : called history = taken history := by
      rw [← hlooping.calledThenLeft, polling_of_maySleep hsleep]
      exact (List.append_nil _).symm
    rw [hall, hhistory, ← htaken, taken, taken, List.flatMap_append, List.flatMap_cons, ← List.append_assoc]
    exact List.prefix_append _ _
  · intro hsleep hpending
    have hpolling := polling_of_maySleep hsleep
    rcases hlooping.awake (by rw [hpolling]; trivial) with hempty | hwakeups | ⟨t, howes⟩
    · exact absurd hempty hpending
    · exact .inl hwakeups
    · cases t with
      | none =>
        rw [hpolling] at howes
        exact absurd howes (by simp)
      | some t =>
        obtain ⟨i, done, next, hthread⟩ := wakes_of_owes hfollowing howes
        exact .inr ⟨t, i, done, next, hthread⟩

end Runs

/-- Threads that queue numbers, which the loop crosses off. -/
def crossingOff : LoopUser Unit ℕ Empty ℕ Empty (fun _ => Unit) Unit Unit where
  exec _ op _ := op.elim
  handleEvent channel := channel.elim
  call _ := .ret ()
  outside _ i := .call (.queueInLoop i) .ret

/-- A number is queued, and the loop has crossed it off by the end of its turn. -/
theorem seven_is_crossed_off :
    ∃ history : LoopHistory Unit ℕ Empty ℕ (fun _ : Empty => Unit) Unit,
      ∃ c, Traced crossingOff.machine (.initial ()) history c ∧ called history = [7] ∧
        ∃ left, called history ++ left ++ c.shared.pendingFunctors = queued history := by
  have hstart : Traced crossingOff.machine (.initial ()) [] (.quiet (.initial ())) := .init
  have hqueued := hstart.run (t := some ()) (i := some 7) ⟨[], ()⟩ rfl rfl
  have hrun := hqueued.run (t := none) (i := none) ⟨[.wakeup], ()⟩ rfl rfl
  exact ⟨_, _, hrun, rfl, (functors_are_called_in_order crossingOff () hrun).1⟩

end ChatService.Muduo
