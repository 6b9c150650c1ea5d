import Orbum.Common.Primitive
import Orbum.Tasks.Barrier

/-!
# `Core::run` and its queues

`Core::run` pushes a time event for each controller, packages all queued events into tasks, and has the executor run
them. Controllers push events of their own while their tasks run, for the next run.

Three queues are bounded and have pushes that wait: that of pending tasks, that of errors and that of events. The
main thread empties the last two only when no worker is busy, so a worker that waits for room in one of them waits
for ever. This does not happen as long as the errors of a batch, those left over and the events fit.

## The model

`Core::run` is a `Client` of the executor. What the controller of an event does with it is any list of pushes and
then an exception or none, chosen when the task is packaged. The data of events is left out.
-/

namespace Orbum

/-! ### Controller events -/

/-- `ControllerType::Type`. -/
inductive ControllerType where
  | eeCore | eeDmac | eeTimers | eeIntc | gif | ipu | vif | vu | iopCore | iopDmac | iopTimers | iopIntc | cdvd | spu2
  | gsCore | crtc | sio0 | sio2
  deriving DecidableEq

/-- The controllers, in the order of their numbers; there are `COUNT`. -/
def ControllerType.all : List ControllerType :=
  [eeCore, eeDmac, eeTimers, eeIntc, gif, ipu, vif, vu, iopCore, iopDmac, iopTimers, iopIntc, cdvd, spu2, gsCore, crtc,
    sio0, sio2]

/-- `EventEntry`. -/
structure EventEntry where
  /-- The controller. -/
  t : ControllerType
  /-- The event. -/
  e : ControllerEventType
  deriving DecidableEq

/-! ### `Core::run` -/

/-- Where `Core::run` is before `dispatch()`. -/
inductive RunPoint where
  /-- In the loop that pushes time events, with the controllers left. -/
  | enqueueing (rest : List ControllerType)
  /-- At `controller_event_queue.try_pop(entry)`. -/
  | popping
  /-- At `enqueue_task(task)`. -/
  | packaging (entry : EventEntry)
  deriving DecidableEq

/-- What `Core::run` works on. -/
structure CoreEvents where
  /-- `controller_event_queue`. -/
  controllerEventQueue : MpmcQueue EventEntry 128
  /-- Where it is. -/
  point : RunPoint

/-- After the construction of `Core`. -/
def CoreEvents.start : CoreEvents := ⟨.empty, .enqueueing ControllerType.all⟩

/-- A task that handles an event. -/
abbrev EventTask := Task EventEntry String

/-- `Core::run`; a choice is what the task packaged next will do. -/
def coreRun : Client CoreEvents EventEntry String EventTask where
  perform entry env := do return { env with controllerEventQueue := ← env.controllerEventQueue.push entry }
  call task env :=
    match env.point with
    | .enqueueing (c :: rest) => do
      return (⟨← env.controllerEventQueue.push ⟨c, .time⟩, .enqueueing rest⟩, .none)
    | .enqueueing [] => .ok ({ env with point := .popping }, .none)
    | .popping =>
      match env.controllerEventQueue.pop with
      | .ok (entry, queue) => .ok (⟨queue, .packaging entry⟩, .none)
      | .error _ => .ok ({ env with point := .enqueueing ControllerType.all }, .dispatch)
    | .packaging _ => .ok ({ env with point := .popping }, .enqueueTask task)

/-- The system. -/
abbrev CoreThreads (n : ℕ) := TaskExecutor CoreEvents EventEntry String n

namespace TaskExecutor

variable {E A ε α : Type} {n : ℕ}

/-- Every thread has finished its part. -/
structure Finished (s : TaskExecutor E A ε n) : Prop where
  /-- The main thread has returned. -/
  main : ∃ r, s.main = .returned r
  /-- No worker has a task, or could get one. -/
  idle : Idle s

/-- Some thread has not finished its part, and none can take a step. -/
structure Stuck (C : Client E A ε α) (s : TaskExecutor E A ε n) : Prop where
  /-- Some thread has not finished. -/
  unfinished : ¬Finished s
  /-- No worker can move. -/
  workers : ∀ i, ¬Run.Enabled (step C) (.worker i) s
  /-- Nor the main thread. -/
  main : ¬Run.Enabled (step C) .main s ∧ ∀ a, ¬Run.Enabled (step C) (.client a) s

end TaskExecutor

/-! ### Counts -/

variable {n : ℕ}

/-- The events that tasks push. -/
def planned (ts : Multiset EventTask) : ℕ := (ts.map fun t => t.actions.length).sum

/-- The tasks that throw. -/
def failing (ts : Multiset EventTask) : ℕ := ts.countP fun t => t.thrown.isSome

/-- The events that the worker's task has yet to push. -/
def Worker.rest : Worker EventEntry String → ℕ
  | running _ rest => rest.length
  | _ => 0

@[simp] theorem planned_zero : planned 0 = 0 := rfl

@[simp] theorem planned_add (ts us : Multiset EventTask) : planned (ts + us) = planned ts + planned us := by
  rw [planned, Multiset.map_add, Multiset.sum_add, planned, planned]

@[simp] theorem planned_singleton (t : EventTask) : planned {t} = t.actions.length := by
  rw [planned, Multiset.map_singleton, Multiset.sum_singleton]

@[simp] theorem failing_add (ts us : Multiset EventTask) : failing (ts + us) = failing ts + failing us :=
  Multiset.countP_add _ _ _

theorem coe_cons {β : Type} (b : β) (bs : List β) : ((b :: bs : List β) : Multiset β) = {b} + bs :=
  (Multiset.cons_coe b bs).symm.trans (Multiset.singleton_add b bs).symm

theorem coe_append_singleton {β : Type} (bs : List β) (b : β) : ((bs ++ [b] : List β) : Multiset β) = bs + {b} :=
  (Multiset.coe_add bs [b]).symm

namespace CoreThreads

open TaskExecutor

/-- The events that tasks on their way have yet to push. -/
def remaining (s : CoreThreads n) : ℕ :=
  planned s.pendingTaskQueue.items + planned s.main.tasks + planned s.runningTaskQueue.items + total Worker.rest s

/-- The condition on a move. Where a run begins, what the last one left must leave room for the time events; where a
task is packaged, the events of the batch must fit, and its errors beside those left over. -/
def Fits : TaskMove EventTask n → CoreThreads n → Prop
  | .begin, s => s.env.controllerEventQueue.items.length + ControllerType.all.length ≤ 128
  | .client task, s => ∀ entry, s.env.point = .packaging entry →
    planned (task :: s.batch : List EventTask) ≤ 128 ∧ s.leftover.length + failing (task :: s.batch : List EventTask) ≤ 32
  | _, _ => True

instance decidableFits : ∀ (m : TaskMove EventTask n) (s : CoreThreads n), Decidable (Fits m s)
  | .begin, _ => inferInstanceAs (Decidable (_ ≤ _))
  | .client task, s =>
    match h : s.env.point with
    | .enqueueing _ => isTrue fun _ hentry => nomatch h.symm.trans hentry
    | .popping => isTrue fun _ hentry => nomatch h.symm.trans hentry
    | .packaging entry => decidable_of_iff (planned (task :: s.batch : List EventTask) ≤ 128 ∧
        s.leftover.length + failing (task :: s.batch : List EventTask) ≤ 32) ⟨fun hfits _ _ => hfits, fun hfits => hfits entry h⟩
  | .worker _, _ => isTrue trivial
  | .main, _ => isTrue trivial

/-- What of the queues is taken where `Core::run` is. -/
def Room (s : CoreThreads n) : Prop :=
  match s.env.point with
  | .enqueueing rest =>
    s.pendingTaskQueue.items = [] ∧ s.env.controllerEventQueue.items.length + rest.length ≤ 128
  | .popping => s.pendingTaskQueue.items.length + s.env.controllerEventQueue.items.length ≤ 128
  | .packaging _ => s.pendingTaskQueue.items.length + s.env.controllerEventQueue.items.length < 128

/-- Everything has room. -/
structure Budget (s : CoreThreads n) : Prop where
  /-- The errors fit. -/
  errors : s.leftover.length + failing s.batch ≤ 32
  /-- The events of the batch fit. -/
  batch : planned s.batch ≤ 128
  /-- Before `dispatch()` the time events and the tasks fit. -/
  room : s.main = .calling → Room s
  /-- The next run begins at the beginning. -/
  point : s.main ≠ .calling → s.env.point = .enqueueing ControllerType.all
  /-- From `dispatch()` on the events to come fit. -/
  events : s.main ≠ .calling → (∀ r, s.main ≠ .returned r) →
    s.env.controllerEventQueue.items.length + remaining s ≤ 128

/-! ### Moves -/

theorem perform_eq {entry : EventEntry} {env env' : CoreEvents} (h : coreRun.perform entry env = .ok env') :
    env'.controllerEventQueue.items = env.controllerEventQueue.items ++ [entry] ∧ env'.point = env.point := by
  obtain ⟨queue, hpush, h⟩ := bind_eq_ok_iff.mp h
  obtain rfl := Except.ok.inj h
  exact ⟨MpmcQueue.items_of_push hpush, rfl⟩

/-- What `Core::run` does next. -/
inductive RunCall (task : EventTask) (env : CoreEvents) : CoreEvents → ClientCall EventEntry String → Prop where
  /-- It pushes the time event of a controller. -/
  | push {queue c rest} : env.point = .enqueueing (c :: rest) →
      queue.items = env.controllerEventQueue.items ++ [⟨c, .time⟩] → RunCall task env ⟨queue, .enqueueing rest⟩ .none
  /-- It has pushed all of them. -/
  | pushed : env.point = .enqueueing [] → RunCall task env { env with point := .popping } .none
  /-- It pops an event. -/
  | pop {queue entry} : env.point = .popping → env.controllerEventQueue.items = entry :: queue.items →
      RunCall task env ⟨queue, .packaging entry⟩ .none
  /-- There is none left. -/
  | dispatch : env.point = .popping → env.controllerEventQueue.items = [] →
      RunCall task env { env with point := .enqueueing ControllerType.all } .dispatch
  /-- It packages the event. -/
  | package {entry} : env.point = .packaging entry → RunCall task env { env with point := .popping } (.enqueueTask task)

theorem runCall_of_call {task : EventTask} {env env' : CoreEvents} {call : ClientCall EventEntry String}
    (h : coreRun.call task env = .ok (env', call)) : RunCall task env env' call := by
  obtain ⟨queue, point⟩ := env
  cases point with
  | enqueueing rest =>
    cases rest with
    | nil =>
      cases h
      exact .pushed rfl
    | cons c rest =>
      obtain ⟨queue', hpush, h⟩ := bind_eq_ok_iff.mp h
      cases h
      exact .push rfl (MpmcQueue.items_of_push hpush)
  | popping =>
    by_cases hempty : queue.items = []
    · have hpop : queue.pop = .error _ := MpmcQueue.pop_of_nil hempty
      simp only [coreRun, hpop] at h
      cases h
      exact .dispatch rfl hempty
    · obtain ⟨entry, queue', hpop⟩ := MpmcQueue.pop_of_ne_nil hempty
      simp only [coreRun, hpop] at h
      cases h
      exact .pop rfl (MpmcQueue.items_of_pop hpop)
  | packaging entry =>
    cases h
    exact .package rfl

theorem Budget.worker {s s' : CoreThreads n} {i : Fin n} (hinv : Invariant s) (h : Budget s)
    (hmove : WorkerMoves coreRun s i s') : Budget s' := by
  have hquiet := not_quiet_of_worker hinv.phase hmove
  have hcalling : s.main ≠ .calling := fun hm => hquiet (by rw [hm]; trivial)
  have hreturned (r : Option (TaskError String)) : s.main ≠ .returned r := fun hm => hquiet (by rw [hm]; trivial)
  have hmain : s'.main = s.main := (main_of_worker hmove).1
  have hevents := h.events hcalling hreturned
  have hpoint := h.point hcalling
  have hsum := hmove.total_add Worker.rest
  have hroom : s'.main = .calling → Room s' := fun hm => absurd (hmain.symm.trans hm) hcalling
  unfold remaining at hevents
  cases hmove with
  | pop hw hq =>
    simp only [hw, setWorker_workers, Function.update_self, Worker.rest] at hsum
    refine ⟨h.errors, h.batch, hroom, fun _ => hpoint, fun _ _ => ?_⟩
    simp only [hq, coe_cons, planned_add, planned_singleton] at hevents
    simp only [remaining, setWorker_env, setWorker_pendingTaskQueue, setWorker_main, setWorker_runningTaskQueue]
    omega
  | act hw henv =>
    obtain ⟨hitems, hpoint'⟩ := perform_eq henv
    simp only [hw, setWorker_workers, Function.update_self, Worker.rest, List.length_cons] at hsum
    refine ⟨h.errors, h.batch, hroom, fun _ => hpoint'.trans hpoint, fun _ _ => ?_⟩
    simp only [remaining, setWorker_env, setWorker_pendingTaskQueue, setWorker_main, setWorker_runningTaskQueue, hitems,
      List.length_append, List.length_singleton]
    omega
  | _ hw =>
    simp only [hw, setWorker_workers, Function.update_self, Worker.rest, List.length_nil] at hsum
    refine ⟨h.errors, h.batch, hroom, fun _ => hpoint, fun _ _ => ?_⟩
    simp only [remaining, setWorker_env, setWorker_pendingTaskQueue, setWorker_main, setWorker_runningTaskQueue]
    omega

theorem Budget.main {s s' : CoreThreads n} (h : Budget s) (hmove : MainMoves s s') : Budget s' := by
  have hevents := h.events
  have hpoint := h.point
  unfold remaining at hevents
  cases hmove with
  | clean hm | rethrow hm =>
    exact ⟨h.errors, h.batch, fun hcalling => absurd hcalling (by simp), fun _ => hpoint (by simp [hm]),
      fun _ hr => absurd rfl (hr _)⟩
  | pop hm hq =>
    refine ⟨h.errors, h.batch, fun hcalling => absurd hcalling (by simp), fun _ => hpoint (by simp [hm]), fun _ _ => ?_⟩
    have hevents := hevents (by simp [hm]) (by simp [hm])
    simp only [hm, hq, coe_cons, planned_add, MainThread.tasks, planned_zero] at hevents
    change _ + (_ + _ + _ + total Worker.rest s) ≤ 128
    simp only [setMain_env, setMain_pendingTaskQueue, setMain_main, setMain_runningTaskQueue, MainThread.tasks]
    omega
  | push hm hl hq =>
    refine ⟨h.errors, h.batch, fun hcalling => absurd hcalling (by simp), fun _ => hpoint (by simp [hm]), fun _ _ => ?_⟩
    have hevents := hevents (by simp [hm]) (by simp [hm])
    simp only [hm, MainThread.tasks] at hevents
    change _ + (_ + _ + _ + total Worker.rest s) ≤ 128
    simp only [setMain_env, setMain_pendingTaskQueue, setMain_main, setMain_runningTaskQueue, MainThread.tasks, hq,
      coe_append_singleton, planned_add, planned_zero]
    omega
  | _ hm =>
    refine ⟨h.errors, h.batch, fun hcalling => absurd hcalling (by simp), fun _ => hpoint (by simp [hm]), fun _ _ => ?_⟩
    have hevents := hevents (by simp [hm]) (by simp [hm])
    rw [hm] at hevents
    exact hevents

/-- Before `dispatch()` the events of the batch are those of the pending tasks. -/
theorem remaining_of_calling {s : CoreThreads n} (h : Invariant s) (hm : s.main = .calling) :
    remaining s = planned s.batch := by
  have hidle : Idle s := h.phase.idle (by rw [hm]; trivial)
  have htasks := h.ledger.tasks
  rw [hm, hidle.queue, total_of_waiting hidle.workers rfl, h.phase.fresh hm] at htasks
  rw [remaining, hm, hidle.queue, total_of_waiting hidle.workers rfl, htasks]
  simp [MainThread.tasks]

theorem Budget.client {s s' : CoreThreads n} {task : EventTask} (hinv : Invariant s) (h : Budget s)
    (hfits : Fits (.client task) s) (hmove : ClientMoves coreRun task s s') : Budget s' := by
  have hm : s.main = .calling := by cases hmove <;> assumption
  have hroom := h.room hm
  unfold Room at hroom
  cases hmove with
  | own _ hcall =>
    refine ⟨h.errors, h.batch, fun _ => ?_, fun hne => absurd hm hne, fun hne => absurd hm hne⟩
    cases runCall_of_call hcall with
    | push hpoint hitems =>
      rw [hpoint] at hroom
      have hlen := congrArg List.length hitems
      simp only [List.length_append, List.length_cons, List.length_nil] at hlen hroom
      refine ⟨hroom.1, ?_⟩
      dsimp only
      omega
    | pushed hpoint =>
      rw [hpoint] at hroom
      simp only [hroom.1, List.length_nil, Nat.add_zero, Nat.zero_add, Room] at hroom ⊢
      exact hroom.2
    | pop hpoint hitems =>
      rw [hpoint] at hroom
      have hlen := congrArg List.length hitems
      simp only [List.length_cons, Room] at hlen hroom ⊢
      omega
  | enqueueTask _ hcall hq =>
    cases runCall_of_call hcall with
    | package hpoint =>
      rw [hpoint] at hroom
      obtain ⟨hplanned, hfailing⟩ := hfits _ hpoint
      refine ⟨hfailing, hplanned, fun _ => ?_, fun hne => absurd hm hne, fun hne => absurd hm hne⟩
      have hlen := congrArg List.length hq
      simp only [List.length_append, List.length_singleton, Room] at hlen hroom ⊢
      omega
  | dispatch _ hcall =>
    have hremaining := remaining_of_calling hinv hm
    cases runCall_of_call hcall with
    | dispatch _ hempty =>
      refine ⟨h.errors, h.batch, nofun, fun _ => rfl, fun _ _ => ?_⟩
      have hsame : remaining s = planned s.pendingTaskQueue.items + 0 + planned s.runningTaskQueue.items +
          total Worker.rest s := by
        rw [remaining, hm]
        rfl
      change s.env.controllerEventQueue.items.length + (planned s.pendingTaskQueue.items + 0 +
        planned s.runningTaskQueue.items + total Worker.rest s) ≤ 128
      rw [← hsame, hremaining, hempty, List.length_nil, Nat.zero_add]
      exact h.batch

theorem budget_begin {s s' : CoreThreads n} (hinv : Invariant s) (h : Budget s) (hfits : Fits .begin s)
    (hstep : beginStep s = .ok s') : Budget s' := by
  unfold beginStep at hstep
  split at hstep
  · rename_i r hm
    obtain rfl := Except.ok.inj hstep
    have hpoint := h.point (by simp [hm])
    refine ⟨?_, Nat.zero_le _, fun _ => ?_, fun hne => absurd rfl hne, fun hne => absurd rfl hne⟩
    · exact s.threadErrorQueue.bounded
    · unfold Room
      rw [setMain_env, hpoint]
      exact ⟨hinv.phase.dispatched (by rw [hm]; trivial), hfits⟩
  · cases hstep

theorem budget_start : Budget (start .start : CoreThreads n) :=
  ⟨Nat.zero_le _, Nat.zero_le _, nofun, fun _ => rfl, fun _ hr => absurd rfl (hr none)⟩

theorem budget_step {m : TaskMove EventTask n} {s s' : CoreThreads n} (hinv : Invariant s) (h : Budget s)
    (hfits : Fits m s) (hstep : step coreRun m s = .ok s') : Budget s' := by
  cases m with
  | worker i => exact h.worker hinv (workerMoves_of_step hstep)
  | main => exact h.main (mainMoves_of_step hstep)
  | client task => exact h.client hinv hfits (clientMoves_of_step hstep)
  | begin => exact budget_begin hinv h hfits hstep

/-! ### Progress -/

/-- What one worker has is part of what they have between them. -/
theorem le_total (f : Worker EventEntry String → ℕ) (s : CoreThreads n) (i : Fin n) : f (s.workers i) ≤ total f s :=
  Finset.single_le_sum (f := fun i => f (s.workers i)) (fun _ _ => Nat.zero_le _) (Finset.mem_univ i)

theorem card_total_errors (s : CoreThreads n) :
    Multiset.card (total (Worker.errors s.number) s) = total (fun w => Multiset.card (w.errors s.number)) s :=
  map_sum Multiset.cardHom _ _

/-- A worker with an error in hand has room for it. -/
theorem room_of_throwing {s : CoreThreads n} (hinv : Invariant s) (h : Budget s) {i : Fin n} {what : String}
    (hw : s.workers i = .throwing what) : s.threadErrorQueue.items.length < 32 := by
  have hreturned (r : Option (TaskError String)) : s.main ≠ .returned r := fun hm => by
    have hidle := hinv.phase.idle (by rw [hm]; trivial)
    cases (hidle.workers i).symm.trans hw
  have hone := le_total (fun w => Multiset.card (w.errors s.number)) s i
  have hcard := congrArg Multiset.card hinv.ledger.errors
  have hfailed : (s.finished.filterMap (Task.error s.number)).length = failing s.finished := by
    rw [List.length_filterMap_eq_countP, failing, Multiset.coe_countP]
    refine congrArg (List.countP · s.finished) (funext fun t => ?_)
    rw [Task.error, Option.isSome_map, Bool.decide_eq_true]
  have hbatch : failing s.finished ≤ failing s.batch := by
    rw [hinv.ledger.tasks, failing_add]
    exact Nat.le_add_left _ _
  have herrors := h.errors
  rw [hw, Worker.errors, Multiset.card_singleton] at hone
  rw [Multiset.card_add, card_total_errors, Multiset.coe_card, Multiset.coe_card, hfailed] at hcard
  rw [hinv.phase.errors hreturned, List.length_append]
  omega

/-- A worker whose task has a push to make has room for it. -/
theorem room_of_running {s : CoreThreads n} (hinv : Invariant s) (h : Budget s) {i : Fin n} {task : EventTask}
    {entry : EventEntry} {rest : List EventEntry} (hw : s.workers i = .running task (entry :: rest)) :
    s.env.controllerEventQueue.items.length < 128 := by
  have hbusy (hquiet : s.main.Quiet) : False := by
    cases ((hinv.phase.idle hquiet).workers i).symm.trans hw
  have hevents := h.events (fun hm => hbusy (by rw [hm]; trivial)) fun r hm => hbusy (by rw [hm]; trivial)
  have hone := le_total Worker.rest s i
  simp only [hw, Worker.rest, List.length_cons] at hone
  unfold remaining at hevents
  omega

/-- A worker that has a task, or is about to, can take a step. -/
theorem enabled_of_busy {s : CoreThreads n} (hinv : Invariant s) (h : Budget s) {i : Fin n}
    (hw : s.workers i ≠ .waiting) : Run.Enabled (step coreRun) (.worker i) s := by
  change ∃ s', workerStep coreRun i s = .ok s'
  unfold workerStep
  cases hi : s.workers i with
  | waiting => exact absurd hi hw
  | popping =>
    have hheld := le_total Worker.holds s i
    have hlocked : s.locked = true := by
      by_contra hl
      rw [hinv.ledger.locked, if_neg hl, hi] at hheld
      exact absurd hheld (by decide)
    obtain ⟨task, queue, hpop⟩ := MpmcQueue.pop_of_ne_nil (hinv.ledger.nonempty hlocked)
    simp only [hpop]
    exact ⟨_, rfl⟩
  | running task rest =>
    cases rest with
    | nil =>
      dsimp only
      split <;> exact ⟨_, rfl⟩
    | cons entry rest =>
      obtain ⟨queue, hpush⟩ := MpmcQueue.push_of_lt (room_of_running hinv h hi) entry
      simp only [coreRun, hpush, ok_bind, pure_eq_ok]
      exact ⟨_, rfl⟩
  | throwing what =>
    obtain ⟨queue, hpush⟩ := MpmcQueue.push_of_lt (room_of_throwing hinv h hi) ⟨what, s.number⟩
    simp only [hpush, ok_bind, pure_eq_ok]
    exact ⟨_, rfl⟩
  | leaving => exact ⟨_, rfl⟩

/-- `Core::run` can take a step before `dispatch()`. -/
theorem enabled_of_calling {s : CoreThreads n} (h : Budget s) (hm : s.main = .calling) :
    ∃ task, Run.Enabled (step coreRun) (.client task) s := by
  have hroom := h.room hm
  unfold Room at hroom
  change ∃ task s', clientStep coreRun task s = .ok s'
  unfold clientStep coreRun
  simp only [hm]
  cases hpoint : s.env.point with
  | enqueueing rest =>
    rw [hpoint] at hroom
    cases rest with
    | nil => exact ⟨⟨[], none⟩, _, rfl⟩
    | cons c rest =>
      simp only [List.length_cons] at hroom
      obtain ⟨queue, hpush⟩ := MpmcQueue.push_of_lt (q := s.env.controllerEventQueue) (by omega) ⟨c, .time⟩
      simp only [hpush, ok_bind, pure_eq_ok]
      exact ⟨⟨[], none⟩, _, rfl⟩
  | popping =>
    cases s.env.controllerEventQueue.pop with
    | ok r => exact ⟨⟨[], none⟩, _, rfl⟩
    | error e => exact ⟨⟨[], none⟩, _, rfl⟩
  | packaging entry =>
    rw [hpoint] at hroom
    simp only at hroom
    obtain ⟨queue, hpush⟩ := MpmcQueue.push_of_lt (q := s.pendingTaskQueue) (by omega) ⟨[], none⟩
    refine ⟨⟨[], none⟩, ?_⟩
    simp only [hpush, ok_bind, pure_eq_ok]
    exact ⟨_, rfl⟩

/-- The main thread can take a step where no worker has a task and none is in the running queue. -/
theorem enabled_of_idle {s : CoreThreads n} (hinv : Invariant s) (h : Budget s) (hl : s.locked = false) (hidle : Idle s)
    (hunfinished : ¬Finished s) :
    Run.Enabled (step coreRun) .main s ∨ ∃ task, Run.Enabled (step coreRun) (.client task) s := by
  change (∃ s', mainStep s = .ok s') ∨ _
  unfold mainStep
  cases hm : s.main with
  | returned r => exact absurd ⟨⟨r, hm⟩, hidle⟩ hunfinished
  | calling => exact .inr (enabled_of_calling h hm)
  | dispatching =>
    left
    dsimp only
    split_ifs with hq
    · exact ⟨_, rfl⟩
    · obtain ⟨fn, queue, hpop⟩ := MpmcQueue.pop_of_ne_nil fun hne => hq (MpmcQueue.isEmpty_iff.mpr hne)
      simp only [hpop, ok_bind, pure_eq_ok]
      exact ⟨_, rfl⟩
  | dispatched fn =>
    left
    obtain ⟨queue, hpush⟩ := MpmcQueue.push_of_lt (q := s.runningTaskQueue) (by simp [hidle.queue]) fn
    simp only [hl, Bool.false_eq_true, if_false, hpush, ok_bind, pure_eq_ok]
    exact ⟨_, rfl⟩
  | waitingForEmpty =>
    left
    dsimp only
    rw [if_neg (by simp [hl, MpmcQueue.isEmpty, hidle.queue])]
    exact ⟨_, rfl⟩
  | waitingForIdle =>
    left
    have hbusy : s.threadBusyCounter = 0 := hinv.ledger.busy.trans (total_of_waiting hidle.workers rfl)
    simp only [hbusy]
    exact ⟨_, rfl⟩
  | checking =>
    left
    dsimp only
    split_ifs <;> exact ⟨_, rfl⟩
  | rethrowing =>
    left
    obtain ⟨error, queue, hpop⟩ := MpmcQueue.pop_of_ne_nil (hinv.phase.rethrowing hm)
    simp only [hpop, ok_bind, pure_eq_ok]
    exact ⟨_, rfl⟩

theorem not_stuck {s : CoreThreads n} (hn : 0 < n) (hinv : Invariant s) (h : Budget s) : ¬Stuck coreRun s := by
  rintro ⟨hunfinished, hworkers, hmain, hclient⟩
  have hwait (i : Fin n) : s.workers i = .waiting := by
    by_contra hw
    exact hworkers i (enabled_of_busy hinv h hw)
  have hl : s.locked = false := by
    by_contra hl
    have hlocked := hinv.ledger.locked
    rw [total_of_waiting hwait rfl, if_pos (Bool.eq_true_of_not_eq_false hl)] at hlocked
    exact absurd hlocked (by decide)
  have hqueue : s.runningTaskQueue.items = [] := by
    by_contra hq
    refine hworkers ⟨0, hn⟩ ?_
    change ∃ s', workerStep coreRun ⟨0, hn⟩ s = .ok s'
    unfold workerStep
    simp only [hwait]
    rw [if_neg (by simp [hl, MpmcQueue.isEmpty, hq])]
    exact ⟨_, rfl⟩
  rcases enabled_of_idle hinv h hl ⟨hqueue, hwait⟩ hunfinished with henabled | ⟨task, henabled⟩
  · exact hmain henabled
  · exact hclient task henabled

/-- For every pool with a worker, and every run all of whose moves fit: no state that is reached is stuck. -/
theorem never_stuck (hn : 0 < n) {moves : List (TaskMove EventTask n)} {s : CoreThreads n}
    (hfits : Run.Always (step coreRun) Fits moves (start .start)) (hrun : Run.run (step coreRun) moves (start .start) = .ok s) :
    ¬Stuck coreRun s := by
  have hstep (m : TaskMove EventTask n) (s s' : CoreThreads n) (h : Invariant s ∧ Budget s) (hm : Fits m s)
      (hs' : step coreRun m s = .ok s') : Invariant s' ∧ Budget s' :=
    ⟨invariant_step h.1 hs', budget_step h.1 h.2 hm hs'⟩
  obtain ⟨hinv, hbudget⟩ := hfits.invariant_run hstep ⟨invariant_start _, budget_start⟩ hrun
  exact not_stuck hn hinv hbudget

/-! ### A run that gets stuck -/

/-- What the task of the CRTC does in a time slice of `k` lines. -/
def crtcTask (k : ℕ) : EventTask :=
  ⟨(List.replicate k [⟨.eeTimers, .hBlank⟩, ⟨.iopTimers, .hBlank⟩]).flatten, none⟩

/-- A task that pushes nothing. -/
def idleTask : EventTask := ⟨[], none⟩

/-- `Core::run` up to the wait, and the worker at the task of the CRTC; the slice is of 65 lines. -/
def crtcMoves : List (TaskMove EventTask 1) :=
  [.begin] ++ .replicate 19 (.client idleTask) ++
    (ControllerType.all.map fun c => [.client idleTask, .client (if c = .crtc then crtcTask 65 else idleTask)]).flatten ++
    [.client idleTask] ++ .replicate 37 .main ++ .replicate (15 * 4 + 2 + 128) (.worker 0)

/-- The worker waits for room among the events, and the main thread for the worker. -/
def Overrun (s : CoreThreads 1) : Prop :=
  s.main = .waitingForEmpty ∧ s.workers 0 = .running (crtcTask 65) [⟨.eeTimers, .hBlank⟩, ⟨.iopTimers, .hBlank⟩] ∧
    s.env.controllerEventQueue.items.length = 128 ∧ s.runningTaskQueue.items ≠ []

instance (s : CoreThreads 1) : Decidable (Overrun s) := inferInstanceAs (Decidable (_ ∧ _ ∧ _ ∧ _))

theorem stuck_of_overrun {s : CoreThreads 1} (h : Overrun s) : Stuck coreRun s := by
  obtain ⟨hm, hw, hevents, hqueue⟩ := h
  refine ⟨fun hf => ?_, fun i => ?_, ?_, fun task => ?_⟩
  · obtain ⟨r, hr⟩ := hf.main
    cases hm.symm.trans hr
  · obtain rfl : i = 0 := Subsingleton.elim i 0
    rintro ⟨s', hs'⟩
    cases workerMoves_of_step hs' with
    | act hw' henv =>
      cases hw.symm.trans hw'
      have hroom := congrArg List.length (perform_eq henv).1
      rename_i env
      have hbound := env.controllerEventQueue.bounded
      rw [List.length_append, List.length_singleton] at hroom
      omega
    | _ hw' => cases hw.symm.trans hw'
  · rintro ⟨s', hs'⟩
    cases mainMoves_of_step hs' with
    | empty _ _ hq => exact hqueue hq
    | _ hm' => cases hm.symm.trans hm'
  · rintro ⟨s', hs'⟩
    cases clientMoves_of_step hs' with
    | _ hm' => cases hm.symm.trans hm'

/-- One worker, one call of `Core::run`, no exception: the worker is stuck at the 129th event. -/
theorem stuck_on_events :
    ∃ s, Run.run (step coreRun) crtcMoves (start .start) = .ok s ∧ Stuck coreRun s := by
  have hrun : (match Run.run (step coreRun) crtcMoves (start .start) with
      | .ok s => decide (Overrun s)
      | .error _ => false) = true := by decide +kernel
  split at hrun
  · rename_i s hs
    exact ⟨s, hs, stuck_of_overrun (of_decide_eq_true hrun)⟩
  · cases hrun

/-- A whole call of `Core::run`, with a slice of 64 lines: the worker does every task, and `wait_for_idle()` returns. -/
def wholeMoves : List (TaskMove EventTask 1) :=
  [.begin] ++ .replicate 19 (.client idleTask) ++
    (ControllerType.all.map fun c => [.client idleTask, .client (if c = .crtc then crtcTask 64 else idleTask)]).flatten ++
    [.client idleTask] ++ .replicate 37 .main ++ .replicate 200 (.worker 0) ++ .replicate 3 .main

/-- The 128 events of 64 lines fit. -/
theorem never_stuck_first : ∃ s : CoreThreads 1, Run.run (step coreRun) wholeMoves (start .start) = .ok s ∧
    s.main = .returned none ∧ s.env.controllerEventQueue.items.length = 128 ∧ ¬Stuck coreRun s := by
  have hfits : Run.Always (step coreRun) Fits wholeMoves (start .start) := by decide +kernel
  have hrun : (match Run.run (step coreRun) wholeMoves (start .start) with
      | .ok s => decide (s.main = .returned none ∧ s.env.controllerEventQueue.items.length = 128)
      | .error _ => false) = true := by decide +kernel
  split at hrun
  · rename_i s hs
    obtain ⟨hmain, hevents⟩ := of_decide_eq_true hrun
    exact ⟨s, hs, hmain, hevents, never_stuck Nat.one_pos hfits hs⟩
  · cases hrun

end CoreThreads

end Orbum
