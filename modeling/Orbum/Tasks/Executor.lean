import Orbum.Tasks.MpmcQueue
import Orbum.Lib.Except
import Mathlib.Algebra.GroupWithZero.Nat
import Mathlib.Data.Int.Notation
import Mathlib.Tactic.Simps.Basic

/-!
# The task executor

`utilities/src/TaskExecutor.hpp`: a pool of workers that run tasks from a queue, and the thread that hands them
tasks and waits.

## The model

Workers and the main thread take turns; a move is one operation on a queue or on the busy counter, or one action of
a task. `try_pop` bumps the counter and pops in one critical section: two moves, between which no other thread gets
at the running queue. A worker whose `try_pop` times out is where it was.

A task is what a call of it does: actions on what is shared, one after another, and then an exception or none. What
it is that tasks share and what the thread does between its calls of the executor is the parameter `Client`.

The number of the batch, its tasks, those that have finished, the errors pushed and those that were there before
are recorded beside the state, and no move depends on them.
-/

namespace Orbum

/-! ### Tasks and their client -/

/-- The only worker can be written as a literal. -/
instance neZeroWorkers : NeZero 1 := ⟨by decide⟩

/-- A `std::function<void()>`. -/
structure Task (A ε : Type) where
  /-- What a call does. -/
  actions : List A
  /-- What it throws then, `error.what()`. -/
  thrown : Option ε
  deriving DecidableEq

/-- An entry of `thread_error_queue`. -/
structure TaskError (ε : Type) where
  /-- `error.what()`. -/
  what : ε
  /-- The batch of the task, recorded. -/
  batch : ℕ
  deriving DecidableEq

/-- What the main thread does between calls of the executor. -/
inductive ClientCall (A ε : Type) where
  /-- Something of its own. -/
  | none
  /-- `enqueue_task(fn)`. -/
  | enqueueTask (fn : Task A ε)
  /-- `dispatch()` and then `wait_for_idle()`. -/
  | dispatch

/-- What tasks share, of type `E`, and what the main thread does. -/
structure Client (E A ε α : Type) where
  /-- An action of a task. -/
  perform : A → E → Except Refusal E
  /-- What the main thread does next, where it can choose. -/
  call : α → E → Except Refusal (E × ClientCall A ε)

/-! ### The state -/

/-- Where a worker is in `main_thread_`. -/
inductive Worker (A ε : Type) where
  /-- In `try_pop`, waiting for a task. -/
  | waiting
  /-- In `try_pop`, the counter bumped. -/
  | popping
  /-- In `task_fn()`, with what is left of it. -/
  | running (task : Task A ε) (rest : List A)
  /-- At the push of the error. -/
  | throwing (what : ε)
  /-- At `thread_busy_counter--`. -/
  | leaving
  deriving DecidableEq

/-- Where the main thread is. -/
inductive MainThread (A ε : Type) where
  /-- `wait_for_idle()` has returned, or thrown the error. -/
  | returned (result : Option (TaskError ε))
  /-- Between calls of the executor. -/
  | calling
  /-- In `dispatch()`, at the head of the loop. -/
  | dispatching
  /-- In `dispatch()`, at the push. -/
  | dispatched (fn : Task A ε)
  /-- At `running_task_queue.wait_for_empty()`. -/
  | waitingForEmpty
  /-- At `thread_busy_counter.wait_for_idle()`. -/
  | waitingForIdle
  /-- At `thread_error_queue.is_empty()`. -/
  | checking
  /-- At `thread_error_queue.pop(error_str)`. -/
  | rethrowing
  deriving DecidableEq

/-- The executor, its `n` workers, and the main thread. -/
structure TaskExecutor (E A ε : Type) (n : ℕ) where
  /-- `running_task_queue`. -/
  runningTaskQueue : MpmcQueue (Task A ε) 128
  /-- A worker has the mutex of `running_task_queue`. -/
  locked : Bool
  /-- `pending_task_queue`. -/
  pendingTaskQueue : MpmcQueue (Task A ε) 128
  /-- `thread_busy_counter`. -/
  threadBusyCounter : ℤ
  /-- `thread_error_queue`. -/
  threadErrorQueue : MpmcQueue (TaskError ε) 32
  /-- The workers. -/
  workers : Fin n → Worker A ε
  /-- The main thread. -/
  main : MainThread A ε
  /-- What tasks share. -/
  env : E
  /-- The number of the batch. -/
  number : ℕ
  /-- The tasks of the batch. -/
  batch : List (Task A ε)
  /-- Those that have finished, as often as they have. -/
  finished : List (Task A ε)
  /-- The errors that were in the queue when the batch began. -/
  leftover : List (TaskError ε)
  /-- The errors pushed since. -/
  raised : List (TaskError ε)

/-- Who moves. -/
inductive TaskMove (α : Type) (n : ℕ) where
  /-- A worker. -/
  | worker (i : Fin n)
  /-- The main thread, in the executor. -/
  | main
  /-- The main thread, between calls of the executor. -/
  | client (a : α)
  /-- The main thread begins the next batch. -/
  | begin

namespace TaskExecutor

variable {E A ε α : Type} {n : ℕ} (C : Client E A ε α)

/-- After the construction of `n` workers. -/
def start (env : E) : TaskExecutor E A ε n where
  runningTaskQueue := .empty
  locked := false
  pendingTaskQueue := .empty
  threadBusyCounter := 0
  threadErrorQueue := .empty
  workers := fun _ => .waiting
  main := .returned none
  env := env
  number := 0
  batch := []
  finished := []
  leftover := []
  raised := []

/-! ### Moves -/

/-- The worker goes to `w`. -/
@[simps] def setWorker (s : TaskExecutor E A ε n) (i : Fin n) (w : Worker A ε) : TaskExecutor E A ε n :=
  { s with workers := Function.update s.workers i w }

/-- The main thread goes to `main`. -/
@[simps] def setMain (s : TaskExecutor E A ε n) (main : MainThread A ε) : TaskExecutor E A ε n := { s with main }

/-- A move of a worker in `main_thread_`. -/
def workerStep (i : Fin n) (s : TaskExecutor E A ε n) : Except Refusal (TaskExecutor E A ε n) :=
  match s.workers i with
  | .waiting =>
    if s.locked ∨ s.runningTaskQueue.isEmpty then .error .blocks
    else .ok ({ s with locked := true, threadBusyCounter := s.threadBusyCounter + 1 }.setWorker i .popping)
  | .popping =>
    match s.runningTaskQueue.pop with
    | .ok (task, queue) =>
      .ok ({ s with runningTaskQueue := queue, locked := false }.setWorker i (.running task task.actions))
    | .error _ => .error .throws
  | .running task (a :: rest) => do return { s with env := ← C.perform a s.env }.setWorker i (.running task rest)
  | .running task [] =>
    match task.thrown with
    | none => .ok ({ s with finished := task :: s.finished }.setWorker i .leaving)
    | some what => .ok ({ s with finished := task :: s.finished }.setWorker i (.throwing what))
  | .throwing what => do
    let error := ⟨what, s.number⟩
    return { s with threadErrorQueue := ← s.threadErrorQueue.push error, raised := s.raised ++ [error] }.setWorker i
      .leaving
  | .leaving => .ok ({ s with threadBusyCounter := s.threadBusyCounter - 1 }.setWorker i .waiting)

/-- A move of the main thread in `dispatch()` and `wait_for_idle()`. -/
def mainStep (s : TaskExecutor E A ε n) : Except Refusal (TaskExecutor E A ε n) :=
  match s.main with
  | .returned _ => .error .blocks
  | .calling => .error .blocks
  | .dispatching =>
    if s.pendingTaskQueue.isEmpty then .ok (s.setMain .waitingForEmpty)
    else do
      let (fn, queue) ← s.pendingTaskQueue.pop
      return { s with pendingTaskQueue := queue }.setMain (.dispatched fn)
  | .dispatched fn =>
    if s.locked then .error .blocks
    else do return { s with runningTaskQueue := ← s.runningTaskQueue.push fn }.setMain .dispatching
  | .waitingForEmpty =>
    if s.locked ∨ ¬s.runningTaskQueue.isEmpty then .error .blocks else .ok (s.setMain .waitingForIdle)
  | .waitingForIdle => if s.threadBusyCounter ≠ 0 then .error .blocks else .ok (s.setMain .checking)
  | .checking =>
    if s.threadErrorQueue.isEmpty then .ok (s.setMain (.returned none)) else .ok (s.setMain .rethrowing)
  | .rethrowing => do
    let (error, queue) ← s.threadErrorQueue.pop
    return { s with threadErrorQueue := queue }.setMain (.returned (some error))

/-- A move of the main thread between calls of the executor. -/
def clientStep (a : α) (s : TaskExecutor E A ε n) : Except Refusal (TaskExecutor E A ε n) :=
  match s.main with
  | .calling => do
    match ← C.call a s.env with
    | (env, .none) => return { s with env }
    | (env, .enqueueTask fn) =>
      return { s with env, pendingTaskQueue := ← s.pendingTaskQueue.push fn, batch := fn :: s.batch }
    | (env, .dispatch) => return { s with env }.setMain .dispatching
  | _ => .error .blocks

/-- The next batch begins. -/
def beginStep (s : TaskExecutor E A ε n) : Except Refusal (TaskExecutor E A ε n) :=
  match s.main with
  | .returned _ =>
    .ok ({ s with
      number := s.number + 1, batch := [], finished := [], leftover := s.threadErrorQueue.items, raised := [] }.setMain
        .calling)
  | _ => .error .blocks

/-- A move. -/
def step : TaskMove α n → TaskExecutor E A ε n → Except Refusal (TaskExecutor E A ε n)
  | .worker i => workerStep C i
  | .main => mainStep
  | .client a => clientStep C a
  | .begin => beginStep

end TaskExecutor

end Orbum
