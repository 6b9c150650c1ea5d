import Orbum.Tasks.Executor
import Mathlib.Algebra.BigOperators.Group.Multiset.Basic
import Mathlib.Algebra.Order.BigOperators.Group.Finset
import Mathlib.Algebra.Order.Group.Int
import Mathlib.Data.Multiset.Filter
import Mathlib.Tactic.Abel

/-!
# The task executor as a barrier

When `wait_for_idle` returns or throws, every task of the batch has finished, once. What it throws is the first
entry of the error queue, and it takes out no other: errors of a batch in which several tasks have failed stay, and
the waits of later batches throw them.

## The proof

`Ledger` counts: what the workers have in hand, the queues and what has finished make up the batch, and the same
for the errors. `Phase` says what the main thread knows where it is: past the wait for an empty queue the queue
stays empty, since only it fills it; and a worker that has popped has bumped the counter before it gave the mutex
back, so past the wait for the counter no worker has a task in hand.
-/

namespace Orbum

variable {E A ε α : Type} {n : ℕ}

/-! ### What threads have in hand -/

/-- What the worker counts in `thread_busy_counter`. -/
def Worker.busy : Worker A ε → ℤ
  | waiting => 0
  | _ => 1

/-- Whether the worker has the mutex of the running queue. -/
def Worker.holds : Worker A ε → ℕ
  | popping => 1
  | _ => 0

/-- The task the worker has in hand. -/
def Worker.tasks : Worker A ε → Multiset (Task A ε)
  | running task _ => {task}
  | _ => 0

/-- The error the worker has in hand. -/
def Worker.errors (number : ℕ) : Worker A ε → Multiset (TaskError ε)
  | throwing what => {⟨what, number⟩}
  | _ => 0

/-- The task the main thread has in hand. -/
def MainThread.tasks : MainThread A ε → Multiset (Task A ε)
  | dispatched fn => {fn}
  | _ => 0

/-- The error of a task. -/
def Task.error (number : ℕ) (t : Task A ε) : Option (TaskError ε) := t.thrown.map fun what => ⟨what, number⟩

namespace TaskExecutor

/-! ### Moves, taken apart -/

/-- The moves of a worker. -/
inductive WorkerMoves (C : Client E A ε α) (s : TaskExecutor E A ε n) (i : Fin n) : TaskExecutor E A ε n → Prop where
  /-- It bumps the counter. -/
  | bump : s.workers i = .waiting → s.locked = false → s.runningTaskQueue.items ≠ [] → WorkerMoves C s i
      ({ s with locked := true, threadBusyCounter := s.threadBusyCounter + 1 }.setWorker i .popping)
  /-- It pops. -/
  | pop {task queue} : s.workers i = .popping → s.runningTaskQueue.items = task :: queue.items → WorkerMoves C s i
      ({ s with runningTaskQueue := queue, locked := false }.setWorker i (.running task task.actions))
  /-- Its task does something. -/
  | act {task a rest env} : s.workers i = .running task (a :: rest) → C.perform a s.env = .ok env → WorkerMoves C s i
      ({ s with env }.setWorker i (.running task rest))
  /-- Its task returns. -/
  | finish {task} : s.workers i = .running task [] → task.thrown = none → WorkerMoves C s i
      ({ s with finished := task :: s.finished }.setWorker i .leaving)
  /-- Its task throws. -/
  | fail {task what} : s.workers i = .running task [] → task.thrown = some what → WorkerMoves C s i
      ({ s with finished := task :: s.finished }.setWorker i (.throwing what))
  /-- It pushes the error. -/
  | push {what} {queue : MpmcQueue (TaskError ε) 32} : s.workers i = .throwing what →
      queue.items = s.threadErrorQueue.items ++ [TaskError.mk what s.number] → WorkerMoves C s i
      ({ s with threadErrorQueue := queue, raised := s.raised ++ [TaskError.mk what s.number] }.setWorker i .leaving)
  /-- It goes back to wait. -/
  | leave : s.workers i = .leaving → WorkerMoves C s i
      ({ s with threadBusyCounter := s.threadBusyCounter - 1 }.setWorker i .waiting)

theorem workerMoves_of_step {C : Client E A ε α} {s s' : TaskExecutor E A ε n} {i : Fin n}
    (h : workerStep C i s = .ok s') : WorkerMoves C s i s' := by
  unfold workerStep at h
  cases hw : s.workers i with
  | waiting =>
    simp only [hw] at h
    split_ifs at h with hc
    rw [not_or, Bool.not_eq_true, MpmcQueue.isEmpty_iff] at hc
    obtain rfl := Except.ok.inj h
    exact .bump hw hc.1 hc.2
  | popping =>
    simp only [hw] at h
    split at h
    · rename_i task queue hq
      obtain rfl := Except.ok.inj h
      exact .pop hw (MpmcQueue.items_of_pop hq)
    · cases h
  | running task rest =>
    cases rest with
    | nil =>
      simp only [hw] at h
      cases ht : task.thrown with
      | none =>
        simp only [ht] at h
        obtain rfl := Except.ok.inj h
        exact .finish hw ht
      | some what =>
        simp only [ht] at h
        obtain rfl := Except.ok.inj h
        exact .fail hw ht
    | cons a rest =>
      simp only [hw] at h
      obtain ⟨env, henv, h⟩ := bind_eq_ok_iff.mp h
      obtain rfl := Except.ok.inj h
      exact .act hw henv
  | throwing what =>
    simp only [hw] at h
    obtain ⟨queue, hq, h⟩ := bind_eq_ok_iff.mp h
    obtain rfl := Except.ok.inj h
    exact .push hw (MpmcQueue.items_of_push hq)
  | leaving =>
    simp only [hw] at h
    obtain rfl := Except.ok.inj h
    exact .leave hw

/-- The moves of the main thread in the executor. -/
inductive MainMoves (s : TaskExecutor E A ε n) : TaskExecutor E A ε n → Prop where
  /-- All tasks are dispatched. -/
  | dispatched : s.main = .dispatching → s.pendingTaskQueue.items = [] → MainMoves s (s.setMain .waitingForEmpty)
  /-- It pops a pending task. -/
  | pop {fn queue} : s.main = .dispatching → s.pendingTaskQueue.items = fn :: queue.items →
      MainMoves s ({ s with pendingTaskQueue := queue }.setMain (.dispatched fn))
  /-- It pushes the task. -/
  | push {fn queue} : s.main = .dispatched fn → s.locked = false →
      queue.items = s.runningTaskQueue.items ++ [fn] →
      MainMoves s ({ s with runningTaskQueue := queue }.setMain .dispatching)
  /-- The running queue is empty. -/
  | empty : s.main = .waitingForEmpty → s.locked = false → s.runningTaskQueue.items = [] →
      MainMoves s (s.setMain .waitingForIdle)
  /-- The counter is zero. -/
  | idle : s.main = .waitingForIdle → s.threadBusyCounter = 0 → MainMoves s (s.setMain .checking)
  /-- There is no error. -/
  | clean : s.main = .checking → s.threadErrorQueue.items = [] → MainMoves s (s.setMain (.returned none))
  /-- There is an error. -/
  | dirty : s.main = .checking → s.threadErrorQueue.items ≠ [] → MainMoves s (s.setMain .rethrowing)
  /-- It throws the error. -/
  | rethrow {error queue} : s.main = .rethrowing → s.threadErrorQueue.items = error :: queue.items →
      MainMoves s ({ s with threadErrorQueue := queue }.setMain (.returned (some error)))

theorem mainMoves_of_step {s s' : TaskExecutor E A ε n} (h : mainStep s = .ok s') : MainMoves s s' := by
  unfold mainStep at h
  cases hm : s.main with
  | returned r =>
    simp only [hm] at h
    cases h
  | calling =>
    simp only [hm] at h
    cases h
  | dispatching =>
    simp only [hm] at h
    split_ifs at h with hq
    · obtain rfl := Except.ok.inj h
      exact .dispatched hm (MpmcQueue.isEmpty_iff.mp hq)
    · obtain ⟨⟨fn, queue⟩, hpop, h⟩ := bind_eq_ok_iff.mp h
      obtain rfl := Except.ok.inj h
      exact .pop hm (MpmcQueue.items_of_pop hpop)
  | dispatched fn =>
    simp only [hm] at h
    split_ifs at h with hl
    obtain ⟨queue, hpush, h⟩ := bind_eq_ok_iff.mp h
    obtain rfl := Except.ok.inj h
    exact .push hm (Bool.not_eq_true _ ▸ hl) (MpmcQueue.items_of_push hpush)
  | waitingForEmpty =>
    simp only [hm] at h
    split_ifs at h with hc
    rw [not_or, not_not, Bool.not_eq_true, MpmcQueue.isEmpty_iff] at hc
    obtain rfl := Except.ok.inj h
    exact .empty hm hc.1 hc.2
  | waitingForIdle =>
    simp only [hm] at h
    split_ifs at h with hc
    obtain rfl := Except.ok.inj h
    exact .idle hm (not_not.mp hc)
  | checking =>
    simp only [hm] at h
    split_ifs at h with hq
    · obtain rfl := Except.ok.inj h
      exact .clean hm (MpmcQueue.isEmpty_iff.mp hq)
    · obtain rfl := Except.ok.inj h
      exact .dirty hm fun he => hq (MpmcQueue.isEmpty_iff.mpr he)
  | rethrowing =>
    simp only [hm] at h
    obtain ⟨⟨error, queue⟩, hpop, h⟩ := bind_eq_ok_iff.mp h
    obtain rfl := Except.ok.inj h
    exact .rethrow hm (MpmcQueue.items_of_pop hpop)

/-- The moves of the main thread between calls of the executor. -/
inductive ClientMoves (C : Client E A ε α) (a : α) (s : TaskExecutor E A ε n) : TaskExecutor E A ε n → Prop where
  /-- Something of its own. -/
  | own {env} : s.main = .calling → C.call a s.env = .ok (env, .none) → ClientMoves C a s { s with env }
  /-- `enqueue_task(fn)`. -/
  | enqueueTask {env fn queue} : s.main = .calling → C.call a s.env = .ok (env, .enqueueTask fn) →
      queue.items = s.pendingTaskQueue.items ++ [fn] →
      ClientMoves C a s { s with env, pendingTaskQueue := queue, batch := fn :: s.batch }
  /-- `dispatch()`. -/
  | dispatch {env} : s.main = .calling → C.call a s.env = .ok (env, .dispatch) →
      ClientMoves C a s ({ s with env }.setMain .dispatching)

theorem clientMoves_of_step {C : Client E A ε α} {a : α} {s s' : TaskExecutor E A ε n} (h : clientStep C a s = .ok s') :
    ClientMoves C a s s' := by
  unfold clientStep at h
  split at h
  · rename_i hm
    obtain ⟨⟨env, call⟩, hcall, h⟩ := bind_eq_ok_iff.mp h
    cases call with
    | none =>
      obtain rfl := Except.ok.inj h
      exact .own hm hcall
    | enqueueTask fn =>
      obtain ⟨queue, hpush, h⟩ := bind_eq_ok_iff.mp h
      obtain rfl := Except.ok.inj h
      exact .enqueueTask hm hcall (MpmcQueue.items_of_push hpush)
    | dispatch =>
      obtain rfl := Except.ok.inj h
      exact .dispatch hm hcall
  · cases h

/-! ### The ledger -/

/-- What the workers have between them. -/
def total {M : Type} [AddCommMonoid M] (f : Worker A ε → M) (s : TaskExecutor E A ε n) : M := ∑ i, f (s.workers i)

/-- A move of a worker changes what this one has. -/
theorem WorkerMoves.total_add {M : Type} [AddCommMonoid M] {C : Client E A ε α} {s s' : TaskExecutor E A ε n}
    {i : Fin n} (h : WorkerMoves C s i s') (f : Worker A ε → M) :
    total f s' + f (s.workers i) = total f s + f (s'.workers i) := by
  cases h <;> exact (sum_update_add s.workers i _ f).trans (by rw [setWorker_workers, Function.update_self]; rfl)

/-- What is where. -/
structure Ledger (s : TaskExecutor E A ε n) : Prop where
  /-- One worker at most has the mutex. -/
  locked : total Worker.holds s = if s.locked then 1 else 0
  /-- It has found a task. -/
  nonempty : s.locked = true → s.runningTaskQueue.items ≠ []
  /-- The counter counts the workers that have one. -/
  busy : s.threadBusyCounter = total Worker.busy s
  /-- No task of the batch is lost, and none is run again. -/
  tasks : (s.batch : Multiset (Task A ε)) =
    s.pendingTaskQueue.items + s.main.tasks + s.runningTaskQueue.items + total Worker.tasks s + s.finished
  /-- No error of the batch is lost, and none is pushed again. -/
  errors : (s.raised : Multiset (TaskError ε)) + total (Worker.errors s.number) s =
    s.finished.filterMap (Task.error s.number)

section

variable {C : Client E A ε α} {s s' : TaskExecutor E A ε n} {i : Fin n}

theorem WorkerMoves.locked (hmove : WorkerMoves C s i s') (h : total Worker.holds s = if s.locked then 1 else 0) :
    total Worker.holds s' = if s'.locked then 1 else 0 := by
  have hsum := hmove.total_add Worker.holds
  rw [h] at hsum
  cases hmove with
  | bump hw hl => simpa [hw, hl, Worker.holds] using hsum
  | pop hw hq =>
    rw [hw] at hsum
    simp only [setWorker_workers, Function.update_self, Worker.holds] at hsum
    have hlocked : s.locked = true := by
      by_contra hl
      simp [hl] at hsum
    simpa [hlocked] using hsum
  | _ hw => simpa [hw, Worker.holds] using hsum

theorem WorkerMoves.busy (hmove : WorkerMoves C s i s') (h : s.threadBusyCounter = total Worker.busy s) :
    s'.threadBusyCounter = total Worker.busy s' := by
  have hsum := hmove.total_add Worker.busy
  rw [← h] at hsum
  cases hmove with
  | bump hw => simpa [hw, Worker.busy] using hsum.symm
  | leave hw =>
    simp only [hw, setWorker_workers, Function.update_self, Worker.busy] at hsum
    exact (eq_sub_of_add_eq (hsum.trans (add_zero _))).symm
  | _ hw =>
    simp only [hw, setWorker_workers, Function.update_self, Worker.busy] at hsum
    exact (add_right_cancel hsum).symm

theorem WorkerMoves.tasks (hmove : WorkerMoves C s i s') (h : (s.batch : Multiset (Task A ε)) =
    s.pendingTaskQueue.items + s.main.tasks + s.runningTaskQueue.items + total Worker.tasks s + s.finished) :
    (s'.batch : Multiset (Task A ε)) =
      s'.pendingTaskQueue.items + s'.main.tasks + s'.runningTaskQueue.items + total Worker.tasks s' + s'.finished := by
  have hsum := hmove.total_add Worker.tasks
  cases hmove with
  | pop hw hq =>
    simp only [hw, setWorker_workers, Function.update_self, Worker.tasks, add_zero] at hsum
    simp only [setWorker_batch, setWorker_pendingTaskQueue, setWorker_main, setWorker_runningTaskQueue,
      setWorker_finished, hsum, h, hq, ← Multiset.cons_coe, ← Multiset.singleton_add]
    abel
  | finish hw | fail hw =>
    simp only [hw, setWorker_workers, Function.update_self, Worker.tasks, add_zero] at hsum
    simp only [setWorker_batch, setWorker_pendingTaskQueue, setWorker_main, setWorker_runningTaskQueue,
      setWorker_finished, h, ← hsum, ← Multiset.cons_coe, ← Multiset.singleton_add]
    abel
  | _ hw =>
    simp only [hw, setWorker_workers, Function.update_self, Worker.tasks] at hsum
    rw [add_right_cancel hsum]
    exact h

theorem WorkerMoves.errors (hmove : WorkerMoves C s i s') (h : (s.raised : Multiset (TaskError ε)) +
    total (Worker.errors s.number) s = s.finished.filterMap (Task.error s.number)) :
    (s'.raised : Multiset (TaskError ε)) + total (Worker.errors s'.number) s' =
      s'.finished.filterMap (Task.error s'.number) := by
  have hsum := hmove.total_add (Worker.errors s.number)
  cases hmove with
  | finish hw ht =>
    simp only [hw, setWorker_workers, Function.update_self, Worker.errors] at hsum
    have hnone : List.filterMap (Task.error s.number) (_ :: s.finished) = s.finished.filterMap (Task.error s.number) :=
      List.filterMap_cons_none (by rw [Task.error, ht]; rfl)
    simp only [setWorker_raised, setWorker_number, setWorker_finished, add_right_cancel hsum, hnone, h]
  | fail hw ht =>
    simp only [hw, setWorker_workers, Function.update_self, Worker.errors, add_zero] at hsum
    have hsome : List.filterMap (Task.error s.number) (_ :: s.finished) = _ :: s.finished.filterMap (Task.error s.number) :=
      List.filterMap_cons_some (by rw [Task.error, ht]; rfl)
    simp only [setWorker_raised, setWorker_number, setWorker_finished, hsum, hsome, ← Multiset.cons_coe, ← h,
      ← Multiset.singleton_add]
    abel
  | push hw hq =>
    simp only [hw, setWorker_workers, Function.update_self, Worker.errors, add_zero] at hsum
    simp only [setWorker_raised, setWorker_number, setWorker_finished, ← h, ← hsum, ← Multiset.coe_add,
      Multiset.coe_singleton]
    abel
  | _ hw =>
    simp only [hw, setWorker_workers, Function.update_self, Worker.errors] at hsum
    exact (congrArg _ (add_right_cancel hsum)).trans h

end

theorem Ledger.worker {C : Client E A ε α} {s s' : TaskExecutor E A ε n} {i : Fin n} (h : Ledger s)
    (hmove : WorkerMoves C s i s') : Ledger s' := by
  refine ⟨hmove.locked h.locked, ?_, hmove.busy h.busy, hmove.tasks h.tasks, hmove.errors h.errors⟩
  cases hmove with
  | bump _ _ hq => exact fun _ => hq
  | pop => exact fun hl => nomatch hl
  | _ => exact h.nonempty

theorem Ledger.main {s s' : TaskExecutor E A ε n} (h : Ledger s) (hmove : MainMoves s s') : Ledger s' := by
  have htasks := h.tasks
  cases hmove with
  | pop hm hq =>
    refine ⟨h.locked, h.nonempty, h.busy, ?_, h.errors⟩
    simp only [hm, MainThread.tasks, hq, ← Multiset.cons_coe, ← Multiset.singleton_add] at htasks
    refine htasks.trans ?_
    simp only [setMain_pendingTaskQueue, setMain_main, setMain_runningTaskQueue, setMain_finished, MainThread.tasks]
    change _ = _ + _ + _ + total Worker.tasks s + _
    abel
  | push hm hl hq =>
    refine ⟨h.locked, fun hl' => absurd hl' (by simp [hl]), h.busy, ?_, h.errors⟩
    simp only [hm, MainThread.tasks] at htasks
    refine htasks.trans ?_
    simp only [setMain_pendingTaskQueue, setMain_main, setMain_runningTaskQueue, setMain_finished, MainThread.tasks, hq,
      ← Multiset.coe_add, Multiset.coe_singleton]
    change _ = _ + _ + _ + total Worker.tasks s + _
    abel
  | _ hm =>
    rw [hm] at htasks
    exact ⟨h.locked, h.nonempty, h.busy, htasks, h.errors⟩

theorem Ledger.client {C : Client E A ε α} {a : α} {s s' : TaskExecutor E A ε n} (h : Ledger s)
    (hmove : ClientMoves C a s s') : Ledger s' := by
  have htasks := h.tasks
  cases hmove with
  | own => exact ⟨h.locked, h.nonempty, h.busy, h.tasks, h.errors⟩
  | enqueueTask hm hcall hq =>
    refine ⟨h.locked, h.nonempty, h.busy, ?_, h.errors⟩
    simp only [hq, ← Multiset.coe_add, ← Multiset.cons_coe, ← Multiset.singleton_add, htasks]
    change _ = _ + _ + _ + total Worker.tasks s + _
    abel
  | dispatch hm =>
    rw [hm] at htasks
    exact ⟨h.locked, h.nonempty, h.busy, htasks, h.errors⟩

/-- Where the counter is zero every worker waits. -/
theorem waiting_of_busy {s : TaskExecutor E A ε n} (h : total Worker.busy s = 0) (i : Fin n) :
    s.workers i = .waiting := by
  have hpos (j : Fin n) : 0 ≤ Worker.busy (s.workers j) := by cases s.workers j <;> simp [Worker.busy]
  have hi := (Finset.sum_eq_zero_iff_of_nonneg fun j _ => hpos j).mp h i (Finset.mem_univ i)
  cases hw : s.workers i with
  | waiting => rfl
  | _ =>
    rw [hw] at hi
    cases hi

/-! ### What the main thread knows -/

end TaskExecutor

/-- No task is on its way. -/
def MainThread.Quiet : MainThread A ε → Prop
  | returned _ | calling | checking | rethrowing => True
  | _ => False

/-- All tasks are dispatched. -/
def MainThread.Dispatched : MainThread A ε → Prop
  | calling | dispatching | dispatched _ => False
  | _ => True

namespace TaskExecutor

/-- No task is in the running queue or in a worker's hands. -/
structure Idle (s : TaskExecutor E A ε n) : Prop where
  /-- The queue is empty. -/
  queue : s.runningTaskQueue.items = []
  /-- The workers wait. -/
  workers : ∀ i, s.workers i = .waiting

/-- What holds where the main thread is. -/
structure Phase (s : TaskExecutor E A ε n) : Prop where
  /-- Before `dispatch()` and after the waits nothing is on its way. -/
  idle : s.main.Quiet → Idle s
  /-- Between the waits no task is left in the queue. -/
  emptied : s.main = .waitingForIdle → s.runningTaskQueue.items = []
  /-- After `dispatch()` nothing is pending. -/
  dispatched : s.main.Dispatched → s.pendingTaskQueue.items = []
  /-- Before `dispatch()` nothing has finished. -/
  fresh : s.main = .calling → s.finished = []
  /-- The error queue grows at its end. -/
  errors : (∀ r, s.main ≠ .returned r) → s.threadErrorQueue.items = s.leftover ++ s.raised
  /-- `wait_for_idle()` takes out the first entry, and throws it. -/
  result : ∀ r, s.main = .returned r →
    r = (s.leftover ++ s.raised).head? ∧ s.threadErrorQueue.items = (s.leftover ++ s.raised).tail
  /-- There is an error to rethrow. -/
  rethrowing : s.main = .rethrowing → s.threadErrorQueue.items ≠ []
  /-- What is left over is from earlier batches. -/
  leftover : ∀ e ∈ s.leftover, e.batch < s.number

theorem not_quiet_of_worker {C : Client E A ε α} {s s' : TaskExecutor E A ε n} {i : Fin n} (h : Phase s)
    (hmove : WorkerMoves C s i s') : ¬s.main.Quiet := by
  intro hquiet
  have hidle := h.idle hquiet
  have hw := hidle.workers i
  cases hmove with
  | bump _ _ hq => exact hq hidle.queue
  | _ hw' => cases hw.symm.trans hw'

theorem main_of_worker {C : Client E A ε α} {s s' : TaskExecutor E A ε n} {i : Fin n} (hmove : WorkerMoves C s i s') :
    s'.main = s.main ∧ s'.pendingTaskQueue = s.pendingTaskQueue ∧ s'.leftover = s.leftover ∧ s'.number = s.number := by
  cases hmove <;> exact ⟨rfl, rfl, rfl, rfl⟩

theorem Phase.worker {C : Client E A ε α} {s s' : TaskExecutor E A ε n} {i : Fin n} (h : Phase s)
    (hmove : WorkerMoves C s i s') : Phase s' := by
  have hquiet := not_quiet_of_worker h hmove
  obtain ⟨hmain, hpending, hleftover, hnumber⟩ := main_of_worker hmove
  have hcalling : s'.main ≠ .calling := fun hm => hquiet (by rw [← hmain, hm]; trivial)
  have hrethrowing : s'.main ≠ .rethrowing := fun hm => hquiet (by rw [← hmain, hm]; trivial)
  have hreturned (r : Option (TaskError ε)) : s'.main ≠ .returned r := fun hm => hquiet (by rw [← hmain, hm]; trivial)
  refine ⟨fun hq => absurd (hmain ▸ hq) hquiet, fun hm => ?_, fun hd => hpending ▸ h.dispatched (hmain ▸ hd),
    fun hm => absurd hm hcalling, fun _ => ?_, fun r hm => absurd hm (hreturned r), fun hm => absurd hm hrethrowing,
    hleftover ▸ hnumber ▸ h.leftover⟩
  · have hempty := h.emptied (hmain ▸ hm)
    cases hmove with
    | pop _ hq => exact absurd (hempty.symm.trans hq) (List.cons_ne_nil _ _).symm
    | _ => exact hempty
  · have herrors := h.errors (hmain ▸ hreturned)
    cases hmove with
    | push _ hq => exact hq.trans ((congrArg (· ++ _) herrors).trans (List.append_assoc _ _ _))
    | _ => exact herrors

theorem Phase.main {s s' : TaskExecutor E A ε n} (hledger : Ledger s) (h : Phase s) (hmove : MainMoves s s') :
    Phase s' := by
  cases hmove with
  | dispatched hm hq =>
    exact ⟨nofun, nofun, fun _ => hq, nofun, fun _ => h.errors (by simp [hm]), nofun, nofun, h.leftover⟩
  | pop hm hq => exact ⟨nofun, nofun, nofun, nofun, fun _ => h.errors (by simp [hm]), nofun, nofun, h.leftover⟩
  | push hm hl hq => exact ⟨nofun, nofun, nofun, nofun, fun _ => h.errors (by simp [hm]), nofun, nofun, h.leftover⟩
  | empty hm hl hq =>
    have hd : s.main.Dispatched := by rw [hm]; trivial
    exact ⟨nofun, fun _ => hq, fun _ => h.dispatched hd, nofun, fun _ => h.errors (by simp [hm]), nofun, nofun, h.leftover⟩
  | idle hm hbusy =>
    have hd : s.main.Dispatched := by rw [hm]; trivial
    have hidle : Idle s := ⟨h.emptied hm, waiting_of_busy (hledger.busy.symm.trans hbusy)⟩
    exact ⟨fun _ => ⟨hidle.queue, hidle.workers⟩, nofun, fun _ => h.dispatched hd, nofun,
      fun _ => h.errors (by simp [hm]), nofun, nofun, h.leftover⟩
  | clean hm hq =>
    have hd : s.main.Dispatched := by rw [hm]; trivial
    have hidle : Idle s := h.idle (by rw [hm]; trivial)
    have herrors : s.leftover ++ s.raised = [] := (h.errors (by simp [hm])).symm.trans hq
    refine ⟨fun _ => ⟨hidle.queue, hidle.workers⟩, nofun, fun _ => h.dispatched hd, nofun, fun hr => absurd rfl (hr none),
      fun r hr => ?_, nofun, h.leftover⟩
    obtain rfl := MainThread.returned.inj hr
    exact ⟨by simp [herrors], by simp [herrors, hq]⟩
  | dirty hm hq =>
    have hd : s.main.Dispatched := by rw [hm]; trivial
    have hidle : Idle s := h.idle (by rw [hm]; trivial)
    exact ⟨fun _ => ⟨hidle.queue, hidle.workers⟩, nofun, fun _ => h.dispatched hd, nofun,
      fun _ => h.errors (by simp [hm]), nofun, fun _ => hq, h.leftover⟩
  | @rethrow error queue hm hq =>
    have hd : s.main.Dispatched := by rw [hm]; trivial
    have hidle : Idle s := h.idle (by rw [hm]; trivial)
    have herrors : s.leftover ++ s.raised = error :: queue.items := (h.errors (by simp [hm])).symm.trans hq
    refine ⟨fun _ => ⟨hidle.queue, hidle.workers⟩, nofun, fun _ => h.dispatched hd, nofun,
      fun hr => absurd rfl (hr (some error)), fun r hr => ?_, nofun, h.leftover⟩
    obtain rfl := MainThread.returned.inj hr
    exact ⟨by simp [herrors], by simp [herrors]⟩

theorem Phase.client {C : Client E A ε α} {a : α} {s s' : TaskExecutor E A ε n} (h : Phase s)
    (hmove : ClientMoves C a s s') : Phase s' := by
  cases hmove with
  | own hm => exact ⟨fun hq => ⟨(h.idle hq).queue, (h.idle hq).workers⟩, h.emptied, h.dispatched, h.fresh, h.errors, h.result,
      h.rethrowing, h.leftover⟩
  | enqueueTask hm =>
    exact ⟨fun hq => ⟨(h.idle hq).queue, (h.idle hq).workers⟩, h.emptied,
      fun hd => absurd hd (by simp [hm, MainThread.Dispatched]), h.fresh, h.errors, h.result, h.rethrowing, h.leftover⟩
  | dispatch hm => exact ⟨nofun, nofun, nofun, nofun, fun _ => h.errors (by simp [hm]), nofun, nofun, h.leftover⟩

/-! ### Runs -/

theorem total_of_waiting {M : Type} [AddCommMonoid M] {f : Worker A ε → M} {s : TaskExecutor E A ε n}
    (h : ∀ i, s.workers i = .waiting) (hf : f .waiting = 0) : total f s = 0 :=
  Finset.sum_eq_zero fun i _ => by rw [h i, hf]

/-- The invariant of the executor. -/
structure Invariant (s : TaskExecutor E A ε n) : Prop where
  /-- What is where. -/
  ledger : Ledger s
  /-- What the main thread knows. -/
  phase : Phase s

theorem invariant_start (env : E) : Invariant (start env : TaskExecutor E A ε n) := by
  have htotal {M : Type} [AddCommMonoid M] (f : Worker A ε → M) :=
    total_of_waiting (f := f) (s := (start env : TaskExecutor E A ε n)) fun _ => rfl
  refine ⟨⟨htotal _ rfl, nofun, (htotal _ rfl).symm, ?_, ?_⟩, ⟨fun _ => ⟨rfl, fun _ => rfl⟩, nofun, fun _ => rfl,
    fun _ => rfl, fun _ => rfl, fun r hr => ?_, nofun, nofun⟩⟩
  · rw [htotal _ rfl]
    rfl
  · rw [htotal _ rfl]
    rfl
  · obtain rfl := MainThread.returned.inj hr
    exact ⟨rfl, rfl⟩

/-- At the end of a batch everything has finished. -/
theorem finished_of_returned {s : TaskExecutor E A ε n} (h : Invariant s) {r : Option (TaskError ε)}
    (hm : s.main = .returned r) : s.finished.Perm s.batch ∧
      (s.raised : Multiset (TaskError ε)) = s.finished.filterMap (Task.error s.number) := by
  have hidle : Idle s := h.phase.idle (by rw [hm]; trivial)
  have hpending := h.phase.dispatched (by rw [hm]; trivial)
  have htasks := h.ledger.tasks
  have herrors := h.ledger.errors
  rw [total_of_waiting hidle.workers rfl, hpending, hidle.queue, hm] at htasks
  rw [total_of_waiting hidle.workers rfl] at herrors
  refine ⟨Multiset.coe_eq_coe.mp ?_, ?_⟩
  · simpa [MainThread.tasks] using htasks.symm
  · simpa using herrors

theorem invariant_begin {s s' : TaskExecutor E A ε n} (h : Invariant s) (hstep : beginStep s = .ok s') :
    Invariant s' := by
  unfold beginStep at hstep
  split at hstep
  · rename_i r hm
    obtain rfl := Except.ok.inj hstep
    have hidle : Idle s := h.phase.idle (by rw [hm]; trivial)
    have hpending := h.phase.dispatched (by rw [hm]; trivial)
    refine ⟨⟨h.ledger.locked, h.ledger.nonempty, h.ledger.busy, ?_, ?_⟩, ⟨fun _ => ⟨hidle.queue, hidle.workers⟩, nofun,
      nofun, fun _ => rfl, fun _ => (List.append_nil _).symm, nofun, nofun, fun e he => ?_⟩⟩
    · simp [total, hidle.workers, Worker.tasks, MainThread.tasks, hpending, hidle.queue]
    · simp [total, hidle.workers, Worker.errors]
    · obtain ⟨-, hitems⟩ := h.phase.result r hm
      have he' : e ∈ s.leftover ++ s.raised := List.mem_of_mem_tail (hitems ▸ he)
      rcases List.mem_append.mp he' with he' | he'
      · exact Nat.lt_succ_of_lt (h.phase.leftover e he')
      · have hmem : e ∈ s.finished.filterMap (Task.error s.number) := by
          rw [← Multiset.mem_coe, ← (finished_of_returned h hm).2]
          exact he'
        obtain ⟨t, -, ht⟩ := List.mem_filterMap.mp hmem
        obtain ⟨what, -, rfl⟩ := Option.map_eq_some_iff.mp ht
        exact Nat.lt_succ_self _
  · cases hstep

theorem invariant_step {C : Client E A ε α} {m : TaskMove α n} {s s' : TaskExecutor E A ε n} (h : Invariant s)
    (hstep : step C m s = .ok s') : Invariant s' := by
  cases m with
  | worker i =>
    have hmove := workerMoves_of_step hstep
    exact ⟨h.ledger.worker hmove, h.phase.worker hmove⟩
  | main =>
    have hmove := mainMoves_of_step hstep
    exact ⟨h.ledger.main hmove, h.phase.main h.ledger hmove⟩
  | client a =>
    have hmove := clientMoves_of_step hstep
    exact ⟨h.ledger.client hmove, h.phase.client hmove⟩
  | begin => exact invariant_begin h hstep

/-! ### The barrier -/

/-- What is promised when `wait_for_idle()` returns or throws: every task of the batch has finished, once; it throws
if and only if one of them has; and what it throws is no error of an earlier batch. -/
structure Barrier (s : TaskExecutor E A ε n) (result : Option (TaskError ε)) : Prop where
  /-- Each task has finished, once. -/
  finished : s.finished.Perm s.batch
  /-- An error is reported if and only if there was one. -/
  throws : result.isSome ↔ ∃ t ∈ s.batch, t.thrown.isSome
  /-- It is of this batch. -/
  own : ∀ e ∈ result, e.batch = s.number

theorem exists_error_iff {s : TaskExecutor E A ε n} (hfinished : s.finished.Perm s.batch) :
    (∃ e, e ∈ s.finished.filterMap (Task.error s.number)) ↔ ∃ t ∈ s.batch, t.thrown.isSome := by
  constructor
  · rintro ⟨e, he⟩
    obtain ⟨t, ht, hte⟩ := List.mem_filterMap.mp he
    obtain ⟨what, hwhat, -⟩ := Option.map_eq_some_iff.mp hte
    exact ⟨t, hfinished.mem_iff.mp ht, hwhat ▸ rfl⟩
  · rintro ⟨t, ht, hthrown⟩
    obtain ⟨what, hwhat⟩ := Option.isSome_iff_exists.mp hthrown
    refine ⟨⟨what, s.number⟩, List.mem_filterMap.mpr ⟨t, hfinished.mem_iff.mpr ht, ?_⟩⟩
    rw [Task.error, hwhat]
    rfl

/-- With nothing left over, the wait reports the batch. -/
theorem barrier_of_nil {s : TaskExecutor E A ε n} (h : Invariant s) {r : Option (TaskError ε)}
    (hm : s.main = .returned r) (hnil : s.leftover = []) : Barrier s r := by
  obtain ⟨hfinished, hraised⟩ := finished_of_returned h hm
  have hr : r = s.raised.head? := by
    have := (h.phase.result r hm).1
    rwa [hnil, List.nil_append] at this
  have hmem (e : TaskError ε) : e ∈ s.raised ↔ e ∈ s.finished.filterMap (Task.error s.number) := by
    rw [← Multiset.mem_coe, hraised, Multiset.mem_coe]
  refine ⟨hfinished, ?_, fun e he => ?_⟩
  · rw [← exists_error_iff hfinished, hr]
    simp only [← hmem]
    cases s.raised with
    | nil => simp
    | cons e rest => exact ⟨fun _ => ⟨e, List.mem_cons_self⟩, fun _ => rfl⟩
  · have he' : e ∈ s.raised := List.mem_of_mem_head? (hr ▸ he)
    obtain ⟨t, -, ht⟩ := List.mem_filterMap.mp ((hmem e).mp he')
    obtain ⟨what, -, rfl⟩ := Option.map_eq_some_iff.mp ht
    rfl

/-- For every pool, every client and every interleaving: when `wait_for_idle()` returns or throws, every task of the
batch has finished, once, and it reports the batch if and only if the error queue was empty when the batch began. -/
theorem barrier_iff (C : Client E A ε α) {env : E} {moves : List (TaskMove α n)} {s : TaskExecutor E A ε n}
    (hrun : Run.run (step C) moves (start env) = .ok s) {r : Option (TaskError ε)} (hm : s.main = .returned r) :
    s.finished.Perm s.batch ∧ (Barrier s r ↔ s.leftover = []) := by
  have h : Invariant s := Run.invariant_run (fun _ _ _ => invariant_step) (invariant_start env) hrun
  refine ⟨(finished_of_returned h hm).1, fun hbarrier => ?_, barrier_of_nil h hm⟩
  obtain ⟨hr, -⟩ := h.phase.result r hm
  cases hl : s.leftover with
  | nil => rfl
  | cons e rest =>
    rw [hl] at hr
    have hlt := h.phase.leftover e (hl ▸ List.mem_cons_self)
    have heq := hbarrier.own e hr
    exact absurd heq hlt.ne

/-! ### Two batches -/

/-- A client of tasks that share nothing, free to make any call. -/
def freeClient : Client Unit Empty String (ClientCall Empty String) where
  perform a _ := nomatch a
  call a _ := .ok ((), a)

/-- A batch whose tasks all throw, dispatched. -/
def failingBatch : List (TaskMove (ClientCall Empty String) 1) :=
  [.begin, .client (.enqueueTask ⟨[], some "first"⟩), .client (.enqueueTask ⟨[], some "second"⟩), .client .dispatch]

/-- A batch of one task that does not throw, dispatched. -/
def quietBatch : List (TaskMove (ClientCall Empty String) 1) :=
  [.begin, .client (.enqueueTask ⟨[], none⟩), .client .dispatch]

/-- The main thread dispatches `k` tasks, the worker makes `l` moves, and the main thread waits for it. -/
def dispatchAndWait (k l m : ℕ) : List (TaskMove (ClientCall Empty String) 1) :=
  .replicate (2 * k + 1) .main ++ .replicate l (.worker 0) ++ .replicate m .main

/-- Two tasks of the first batch throw, and the task of the second does not: the second wait throws. -/
theorem error_of_earlier_batch :
    ∃ s, Run.run (step freeClient)
      (failingBatch ++ dispatchAndWait 2 10 4 ++ (quietBatch ++ dispatchAndWait 1 4 4)) (start ()) = .ok s ∧
      s.main = .returned (some ⟨"second", 1⟩) ∧ s.number = 2 ∧ (∀ t ∈ s.batch, t.thrown = none) ∧
      ¬Barrier s (some ⟨"second", 1⟩) := by
  refine ⟨_, rfl, rfl, rfl, ?_, fun h => absurd (h.own _ rfl) (by decide)⟩
  intro t ht
  obtain rfl := List.mem_singleton.mp ht
  rfl

/-- A batch of one task that does not throw. -/
theorem barrier_iff_quietBatch :
    ∃ s, Run.run (step freeClient) (quietBatch ++ dispatchAndWait 1 4 3) (start ()) = .ok s ∧
      s.finished.Perm s.batch ∧ (Barrier s none ↔ s.leftover = []) := by
  obtain ⟨s, hrun, hm⟩ : ∃ s, Run.run (step freeClient) (quietBatch ++ dispatchAndWait 1 4 3) (start ()) = .ok s ∧
      s.main = .returned none := ⟨_, rfl, rfl⟩
  exact ⟨s, hrun, barrier_iff freeClient hrun hm⟩

end TaskExecutor

end Orbum
