import Mathlib.Data.List.Basic
import Mathlib.Data.List.Perm.Basic
import Mathlib.Tactic.Common

/-!
# The worker pool and the task queues of the event loops

A request crosses two queues between the thread that read it and the thread that sends the reply.
`Tpl` is the pool of worker threads with its queue `q`, to which `enqueue` appends and from whose
front a thread takes its next task, both holding the pool's mutex. `EventLoop` is the other queue,
`taskQueue`, with the counter of the `eventfd` that wakes the loop and whether `handle_wakeup` holds
the mutex of the queue, which it does until the queue is empty. A call of `addtask` is two steps: it
pushes the task holding the mutex (`EventLoop.push`), and then writes the `eventfd`
(`EventLoop.wakeup`); a thread between the two is `waking` the loop.

Both are generic in the tasks. `Tpl.running` are the tasks being run, and the three `running_put`
lemmas say how a thread that changes what it does changes them.
-/

set_option autoImplicit false
set_option relaxedAutoImplicit false

namespace Reactor

/-- What a thread of the pool is doing. -/
inductive WorkThread (Task : Type*)
  | waiting
  | running (task : Task)
  | waking (loop : ℕ)
  deriving DecidableEq

/-- The task a thread is running. -/
def WorkThread.task? {Task : Type*} : WorkThread Task → Option Task
  | .waiting => none
  | .running task => some task
  | .waking _ => none

structure Tpl (Task : Type*) where
  threads : List (WorkThread Task)
  q : List Task

namespace Tpl

variable {Task : Type*}

/-- The constructor: `num` threads, all waiting. -/
def new (num : ℕ) : Tpl Task := ⟨List.replicate num .waiting, []⟩

def size (pool : Tpl Task) : ℕ := pool.threads.length

def enqueue (pool : Tpl Task) (task : Task) : Tpl Task := { pool with q := pool.q ++ [task] }

/-- A thread goes on to do something else. -/
def put (pool : Tpl Task) (worker : ℕ) (thread : WorkThread Task) : Tpl Task :=
  { pool with threads := pool.threads.set worker thread }

/-- A waiting thread takes the front of the queue. -/
def take (pool : Tpl Task) (worker : ℕ) : Option (Tpl Task) :=
  match pool.threads[worker]?, pool.q with
  | some .waiting, task :: rest => some ({ pool with q := rest }.put worker (.running task))
  | _, _ => none

/-- The task a thread of the pool is running. -/
def taskOf (pool : Tpl Task) (worker : ℕ) : Option Task :=
  pool.threads[worker]?.bind WorkThread.task?

/-- The tasks being run. -/
def running (pool : Tpl Task) : List Task := pool.threads.filterMap WorkThread.task?

@[simp] theorem size_put (pool : Tpl Task) (worker : ℕ) (thread : WorkThread Task) :
    (pool.put worker thread).size = pool.size := List.length_set

@[simp] theorem running_enqueue (pool : Tpl Task) (task : Task) :
    (pool.enqueue task).running = pool.running := rfl

@[simp] theorem q_enqueue (pool : Tpl Task) (task : Task) :
    (pool.enqueue task).q = pool.q ++ [task] := rfl

@[simp] theorem q_put (pool : Tpl Task) (worker : ℕ) (thread : WorkThread Task) :
    (pool.put worker thread).q = pool.q := rfl

@[simp] theorem running_new (num : ℕ) : (new num : Tpl Task).running = [] := by
  simp [new, running, List.filterMap_replicate, WorkThread.task?]

@[simp] theorem size_new (num : ℕ) : (new num : Tpl Task).size = num := List.length_replicate

/-- A thread that takes a task has been waiting, and the task was in front of the queue. -/
theorem take_eq_some {pool next : Tpl Task} {worker : ℕ} (htake : pool.take worker = some next) :
    ∃ task rest, pool.threads[worker]? = some .waiting ∧ pool.q = task :: rest ∧
      next = { pool with q := rest }.put worker (.running task) := by
  unfold take at htake
  split at htake
  · rename_i task rest hthread hq
    cases htake
    exact ⟨task, rest, hthread, hq, rfl⟩
  · cases htake

/-- The tasks being run are, up to their order, that of one thread and those of the others. -/
theorem running_perm {pool : Tpl Task} {worker : ℕ} {thread : WorkThread Task}
    (hthread : pool.threads[worker]? = some thread) :
    pool.running.Perm
      (thread.task?.toList ++ (pool.threads.eraseIdx worker).filterMap WorkThread.task?) := by
  obtain ⟨hworker, rfl⟩ := List.getElem?_eq_some_iff.mp hthread
  have hperm := (List.getElem_cons_eraseIdx_perm hworker).symm.filterMap WorkThread.task?
  unfold running
  refine hperm.trans ?_
  rw [List.filterMap_cons]
  cases pool.threads[worker].task? <;> exact List.Perm.refl _

/-- What is run after a thread goes on to do something else. -/
theorem running_put_perm {pool : Tpl Task} {worker : ℕ} {thread : WorkThread Task}
    (hthread : pool.threads[worker]? = some thread) (other : WorkThread Task) :
    (pool.put worker other).running.Perm
      (other.task?.toList ++ (pool.threads.eraseIdx worker).filterMap WorkThread.task?) := by
  obtain ⟨hworker, -⟩ := List.getElem?_eq_some_iff.mp hthread
  have hother : (pool.put worker other).threads[worker]? = some other := by
    simp [put, hworker]
  have hperm := running_perm hother
  rwa [put, List.eraseIdx_set_eq] at hperm

/-- A thread that starts a task adds it to the tasks being run. -/
theorem running_put_running {pool : Tpl Task} {worker : ℕ}
    (hthread : pool.threads[worker]? = some .waiting) (task : Task) :
    (pool.put worker (.running task)).running.Perm (task :: pool.running) :=
  (running_put_perm hthread (.running task)).trans ((running_perm hthread).symm.cons task)

/-- A thread that goes on from a task takes it away from the tasks being run. -/
theorem running_put_done {pool : Tpl Task} {worker : ℕ} {task : Task}
    (hthread : pool.threads[worker]? = some (.running task)) {other : WorkThread Task}
    (hother : other.task? = none) :
    pool.running.Perm (task :: (pool.put worker other).running) := by
  have hput := running_put_perm hthread other
  rw [hother] at hput
  exact (running_perm hthread).trans (hput.symm.cons task)

/-- A thread that has no task and takes none leaves the tasks being run as they are. -/
theorem running_put_idle {pool : Tpl Task} {worker : ℕ} {thread other : WorkThread Task}
    (hthread : pool.threads[worker]? = some thread) (hidle : thread.task? = none)
    (hother : other.task? = none) : pool.running.Perm (pool.put worker other).running := by
  have hput := running_put_perm hthread other
  have hbefore := running_perm hthread
  rw [hother] at hput
  rw [hidle] at hbefore
  exact hbefore.trans hput.symm

theorem mem_taskOf {pool : Tpl Task} {worker : ℕ} {task : Task} :
    task ∈ pool.taskOf worker ↔ pool.threads[worker]? = some (.running task) := by
  rw [Option.mem_def, taskOf, Option.bind_eq_some_iff]
  constructor
  · rintro ⟨thread, hthread, htask⟩
    cases thread with
    | running other =>
      cases htask
      exact hthread
    | _ => cases htask
  · exact fun hthread ↦ ⟨_, hthread, rfl⟩

/-- A thread that runs a task is one of those with a task. -/
theorem mem_running {pool : Tpl Task} {task : Task} :
    task ∈ pool.running ↔ ∃ worker : ℕ, pool.threads[worker]? = some (.running task) := by
  unfold running
  rw [List.mem_filterMap]
  constructor
  · rintro ⟨thread, hmem, htask⟩
    obtain ⟨worker, hworker⟩ := List.mem_iff_getElem?.mp hmem
    cases thread with
    | waiting => cases htask
    | running other =>
      cases htask
      exact ⟨worker, hworker⟩
    | waking loop => cases htask
  · rintro ⟨worker, hworker⟩
    exact ⟨.running task, List.mem_of_getElem? hworker, rfl⟩

end Tpl

structure EventLoop (Task : Type*) where
  taskQueue : List Task
  /-- The counter of the `eventfd`. -/
  eventfd : ℕ
  /-- `handle_wakeup` holds the mutex. -/
  draining : Bool

namespace EventLoop

variable {Task : Type*}

/-- A loop with nothing to do. -/
def new : EventLoop Task := ⟨[], 0, false⟩

/-- The first half of `addtask`: the push, which waits for the mutex. -/
def push (loop : EventLoop Task) (task : Task) : Option (EventLoop Task) :=
  if loop.draining then none else some { loop with taskQueue := loop.taskQueue ++ [task] }

/-- The largest value the counter of an `eventfd` can have. -/
def eventfdMax : ℕ := 0xfffffffffffffffe

/-- The second half of `addtask`; the write fails when the counter cannot grow. -/
def wakeup (loop : EventLoop Task) : EventLoop Task :=
  { loop with eventfd := if loop.eventfd < eventfdMax then loop.eventfd + 1 else loop.eventfd }

/-- The beginning of `handle_wakeup`, which is run when the `eventfd` can be read. -/
def handleWakeup (loop : EventLoop Task) : Option (EventLoop Task) :=
  if loop.draining = false ∧ 0 < loop.eventfd then
    some { loop with eventfd := 0, draining := true }
  else none

/-- `handle_wakeup` takes the front of the queue. -/
def pop (loop : EventLoop Task) : Option (Task × EventLoop Task) :=
  match loop.draining, loop.taskQueue with
  | true, task :: rest => some (task, { loop with taskQueue := rest })
  | _, _ => none

/-- `handle_wakeup` returns when the queue is empty. -/
def release (loop : EventLoop Task) : Option (EventLoop Task) :=
  if loop.draining = true ∧ loop.taskQueue = [] then some { loop with draining := false } else none

@[simp] theorem taskQueue_wakeup (loop : EventLoop Task) :
    loop.wakeup.taskQueue = loop.taskQueue := rfl

@[simp] theorem draining_wakeup (loop : EventLoop Task) :
    loop.wakeup.draining = loop.draining := rfl

/-- After a write the `eventfd` can be read, whether the write failed or not. -/
theorem eventfd_wakeup_pos (loop : EventLoop Task) : 0 < loop.wakeup.eventfd := by
  unfold wakeup eventfdMax
  split_ifs <;> simp only <;> omega

theorem push_eq_some {loop next : EventLoop Task} {task : Task}
    (hpush : loop.push task = some next) :
    loop.draining = false ∧ next = { loop with taskQueue := loop.taskQueue ++ [task] } := by
  unfold push at hpush
  split_ifs at hpush with hdraining
  cases hpush
  exact ⟨by simpa using hdraining, rfl⟩

theorem handleWakeup_eq_some {loop next : EventLoop Task}
    (hhandle : loop.handleWakeup = some next) :
    loop.draining = false ∧ next = { loop with eventfd := 0, draining := true } := by
  unfold handleWakeup at hhandle
  split_ifs at hhandle with hready
  cases hhandle
  exact ⟨hready.1, rfl⟩

/-- `handle_wakeup` begins only when the `eventfd` can be read. -/
theorem eventfd_of_handleWakeup {loop next : EventLoop Task}
    (hhandle : loop.handleWakeup = some next) : 0 < loop.eventfd := by
  unfold handleWakeup at hhandle
  split_ifs at hhandle with hready
  exact hready.2

theorem pop_eq_some {loop next : EventLoop Task} {task : Task}
    (hpop : loop.pop = some (task, next)) :
    loop.draining = true ∧ loop.taskQueue = task :: next.taskQueue ∧
      next = { loop with taskQueue := next.taskQueue } := by
  unfold pop at hpop
  split at hpop
  · rename_i front rest hdraining hqueue
    cases hpop
    exact ⟨hdraining, hqueue, rfl⟩
  · cases hpop

theorem release_eq_some {loop next : EventLoop Task} (hrelease : loop.release = some next) :
    loop.draining = true ∧ loop.taskQueue = [] ∧ next = { loop with draining := false } := by
  unfold release at hrelease
  split_ifs at hrelease with hdone
  cases hrelease
  exact ⟨hdone.1, hdone.2, rfl⟩

end EventLoop

end Reactor
