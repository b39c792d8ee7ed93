import ChatService.Foundation.Binary64
import ChatService.Foundation.Histories
import Mathlib.Algebra.Order.Field.Rat

/-!
# `ServerMetrics`: what the server counts (`server/ServerMetrics.cc`, `muduo/base/Atomic.h`)

Six counters, each an atomic of its own.  A recorder and a snapshot touch several of them one after another, so the
methods are programs of atomic actions, which any number of threads interleave.  What is added to a counter goes
through `wrap`: `wrap64` is the 64-bit counter of the source, `id` one that counts without end.

An average and a rate are quotients of doubles: what is counted is rounded, and so is the quotient.
-/

namespace ChatService

open AtomicProgram

/-- The members of `ServerMetrics`. -/
inductive Counter where
  | totalConnections
  | droppedConnections
  | totalMessages
  | intervalMessages
  | intervalLatencyMicros
  | intervalLatencySamples
deriving DecidableEq

abbrev ServerMetrics := Counter → ℤ

structure MetricsSnapshot where
  onlineUsers : ℤ
  activeRooms : ℤ
  intervalMessages : ℤ
  totalMessages : ℤ
  totalConnections : ℤ
  droppedConnections : ℤ
  /-- `none` is the infinite rate. -/
  messagesPerSecond : Option ℚ
  averageLatencyMicros : ℚ
deriving DecidableEq

namespace ServerMetrics

/-- `ServerMetrics::ServerMetrics`. -/
def initial : ServerMetrics := fun _ => 0

/-- What 64 bits keep of a sum. -/
def wrap64 (n : ℤ) : ℤ := n.bmod (2 ^ 64)

/-- The methods of `AtomicInt64`, and `report`, the return of a snapshot to the caller. -/
inductive CounterOp where
  | get (counter : Counter)
  | getAndSet (counter : Counter) (value : ℤ)
  | add (counter : Counter) (x : ℤ)
  | increment (counter : Counter)
  | report (snapshot : MetricsSnapshot)
deriving DecidableEq

abbrev CounterOp.Response : CounterOp → Type
  | get _ => ℤ
  | getAndSet _ _ => ℤ
  | add _ _ => Unit
  | increment _ => Unit
  | report _ => Unit

def exec (wrap : ℤ → ℤ) (_ : Unit) : (op : CounterOp) → ServerMetrics → op.Response × ServerMetrics
  | .get counter, s => (s counter, s)
  | .getAndSet counter value, s => (s counter, Function.update s counter value)
  | .add counter x, s => ((), Function.update s counter (wrap (s counter + x)))
  | .increment counter, s => ((), Function.update s counter (wrap (s counter + 1)))
  | .report _, s => ((), s)

abbrev Method (α : Type) := Prog CounterOp CounterOp.Response α

abbrev act (op : CounterOp) : Method op.Response := Prog.perform op

def recordConnectionOpened : Method Unit := act (.increment .totalConnections)

def recordConnectionDropped : Method Unit := act (.increment .droppedConnections)

/-- What `recordMessage` makes of its argument. -/
def clamped (latencyMicros : ℤ) : ℤ := if latencyMicros < 0 then 0 else latencyMicros

def recordMessage (latencyMicros : ℤ) : Method Unit := do
  act (.increment .totalMessages)
  act (.increment .intervalMessages)
  act (.add .intervalLatencyMicros (clamped latencyMicros))
  act (.increment .intervalLatencySamples)

/-- The quotient of a sum and a number of samples, both of them converted to `double`; zero without samples.  No number
of 64 bits is too large for a `double`. -/
def averageOf (latencyMicros latencySamples : ℤ) : ℚ :=
  if latencySamples = 0 then 0
  else Binary64.nearest (Binary64.nearest latencyMicros / Binary64.nearest latencySamples)

-- the sum is rounded up, and the average lies above every latency
example : averageOf (7 * 1700000000000001) 7 = 1700000000000001 + 1 / 4 := by decide +kernel

def snapshotAndReset (onlineUsers activeRooms : ℤ) (intervalSeconds : ℚ) : Method MetricsSnapshot := do
  let intervalMessages ← act (.getAndSet .intervalMessages 0)
  let totalMessages ← act (.get .totalMessages)
  let totalConnections ← act (.get .totalConnections)
  let droppedConnections ← act (.get .droppedConnections)
  let messagesPerSecond :=
    if intervalSeconds ≤ 0 then some 0 else Binary64.round (Binary64.nearest intervalMessages / intervalSeconds)
  let latencyMicros ← act (.getAndSet .intervalLatencyMicros 0)
  let latencySamples ← act (.getAndSet .intervalLatencySamples 0)
  pure
    { onlineUsers, activeRooms, intervalMessages, totalMessages, totalConnections, droppedConnections
      messagesPerSecond, averageLatencyMicros := averageOf latencyMicros latencySamples }

/-- A call of one of the methods. -/
inductive MetricsCall where
  | opened
  | dropped
  | message (latencyMicros : ℤ)
  | snapshot (onlineUsers activeRooms : ℤ) (intervalSeconds : ℚ)

def onCall : MetricsCall → Method Unit
  | .opened => recordConnectionOpened
  | .dropped => recordConnectionDropped
  | .message latencyMicros => recordMessage latencyMicros
  | .snapshot onlineUsers activeRooms intervalSeconds => do
    let snapshot ← snapshotAndReset onlineUsers activeRooms intervalSeconds
    act (.report snapshot)

/-- Any thread may call any method at any time. -/
def machine (Tid : Type) (wrap : ℤ → ℤ) : Machine Tid MetricsCall CounterOp CounterOp.Response ServerMetrics Unit where
  exec := exec wrap
  program _ := onCall
  admits _ _ _ := True
  enter _ _ := id

/-! ### Calls without interleaving -/

theorem clamped_of_nonneg {latencyMicros : ℤ} (h : 0 ≤ latencyMicros) : clamped latencyMicros = latencyMicros :=
  if_neg (by omega)

theorem clamped_nonneg (latencyMicros : ℤ) : 0 ≤ clamped latencyMicros := by
  rw [clamped]
  split_ifs <;> omega

section

variable (wrap : ℤ → ℤ) (s : ServerMetrics)

/-- What `recordMessage` adds. -/
theorem run_recordMessage (latencyMicros : ℤ) :
    ((recordMessage latencyMicros).run (exec wrap) () s).2 .intervalLatencyMicros =
        wrap (s .intervalLatencyMicros + clamped latencyMicros) ∧
      ((recordMessage latencyMicros).run (exec wrap) () s).2 .intervalLatencySamples =
        wrap (s .intervalLatencySamples + 1) :=
  ⟨rfl, rfl⟩

/-- What `snapshotAndReset` reports of the latencies, and what it leaves. -/
theorem run_snapshotAndReset (onlineUsers activeRooms : ℤ) (intervalSeconds : ℚ) :
    ((snapshotAndReset onlineUsers activeRooms intervalSeconds).run (exec wrap) () s).1.averageLatencyMicros =
        averageOf (s .intervalLatencyMicros) (s .intervalLatencySamples) ∧
      ((snapshotAndReset onlineUsers activeRooms intervalSeconds).run (exec wrap) () s).2 .intervalLatencyMicros = 0 ∧
      ((snapshotAndReset onlineUsers activeRooms intervalSeconds).run (exec wrap) () s).2 .intervalLatencySamples = 0 :=
  ⟨rfl, rfl, rfl⟩

end

end ServerMetrics

end ChatService
