import Reactor.PoolProgress
import Reactor.StoppedLoop
import Reactor.Library.Simulation

/-!
# The threads of the event loops

The constructor of `Tcpserver` makes the sub-loops and pushes the `run` of each to a `Threadpool`,
so that the tasks of this pool are loops, and a task ends when its `run` returns. `step` is the pool
of `WorkerPool` with the loops of `Wakeup`: a worker takes the next loop and then is the thread of
that loop, which makes no step before. Loops are numbered in the order in which they are pushed. The
pool is a singleton, so the loops of a second server go to the pool of the first one, with the size
that one gave it.

`each_loop_runs` is about the start: of the loops that have not returned the pool runs as many as it
has workers, each on one worker, and no others until one of these returns. `teardown` is about the
end: after `Tcpserver::stop` and the destructor of the pool, when the destructor left no worker
behind, the threads come to their end, but for those in handlers that do not return.
-/

set_option autoImplicit false
set_option relaxedAutoImplicit false

namespace Reactor.LoopThreads

open Library PoolProgress StoppedLoop
open scoped List

structure State (Task : Type*) where
  /-- The pool, whose tasks are the numbers of the loops. -/
  pool : WorkerPool.State ℕ
  loops : ℕ → Wakeup.State Task

inductive Label (Task : Type*)
  /-- The constructor pushes the `run` of the next loop. -/
  | start
  | pool (label : WorkerPool.Label ℕ)
  /-- The `run` that a worker is running has returned. -/
  | finish (worker : ℕ)
  | loop (index : ℕ) (label : Wakeup.Label Task)

section Steps

variable {Task : Type*}

/-- The step of the pool that a step is. -/
def onPool (state : State Task) : Label Task → Option (WorkerPool.Label ℕ)
  | .start => some (.enqueue state.pool.enqueued.length)
  | .pool (.enqueue _) | .pool (.finish _) => none
  | .pool label => some label
  | .finish worker =>
    match state.pool.threads[worker]? with
    | some (.running index) =>
      if (state.loops index).phase = .returned then some (.finish worker) else none
    | _ => none
  | .loop _ _ => none

def step (state : State Task) (label : Label Task) : Option (State Task) :=
  match label with
  | .loop index label =>
    if own label = true → .running index ∈ state.pool.threads then
      (Wakeup.step (state.loops index) label).map fun loop ↦
        { state with loops := Function.update state.loops index loop }
    else none
  | label =>
    (onPool state label).bind fun label ↦
      (WorkerPool.step false state.pool label).map fun pool ↦ { state with pool }

/-- The pool and the loops, before any server is constructed. -/
def State.new (num : ℕ) : State Task := ⟨.new num, fun _ ↦ .new⟩

/-- The loops on a pool with a number of workers. -/
def system (num : ℕ) : TransitionSystem (State Task) (Label Task) where
  initial := fun state ↦ state = .new num
  step := step

/-- What a step does: it is a step of the pool, or of one of the loops. -/
inductive Moves (state : State Task) : Label Task → State Task → Prop
  | pool {label : Label Task} {inner : WorkerPool.Label ℕ} {pool : WorkerPool.State ℕ}
      (hinner : onPool state label = some inner)
      (hstep : WorkerPool.step false state.pool inner = some pool) :
      Moves state label { state with pool }
  | loop {index : ℕ} {label : Wakeup.Label Task} {loop : Wakeup.State Task}
      (hthread : own label = true → .running index ∈ state.pool.threads)
      (hstep : Wakeup.step (state.loops index) label = some loop) :
      Moves state (.loop index label)
        { state with loops := Function.update state.loops index loop }

theorem moves_of_step {state next : State Task} {label : Label Task}
    (hstep : step state label = some next) : Moves state label next := by
  cases label with
  | loop index label =>
    rw [step, Option.ite_none_right_eq_some] at hstep
    obtain ⟨hthread, hmap⟩ := hstep
    obtain ⟨loop, hloop, rfl⟩ := Option.map_eq_some_iff.mp hmap
    exact .loop hthread hloop
  | start | pool | finish =>
    rw [step, Option.bind_eq_some_iff] at hstep
    · obtain ⟨inner, hinner, hmap⟩ := hstep
      obtain ⟨pool, hpool, rfl⟩ := Option.map_eq_some_iff.mp hmap
      exact .pool hinner hpool
    · nofun

/-! ### The parts -/

/-- The pool is one of `WorkerPool`. -/
theorem pool_simulation (num : ℕ) : Simulation (system num : TransitionSystem (State Task) _)
    (WorkerPool.system false num) (fun _ _ ↦ True) (fun _ _ ↦ True)
    fun state pool ↦ pool = state.pool := by
  refine ⟨?_, ?_⟩
  · rintro state rfl
    exact ⟨_, rfl, rfl⟩
  · rintro state pool label next rfl - hstep
    cases moves_of_step hstep with
    | @pool _ inner after _ hinner =>
      refine ⟨[inner], after, TransitionSystem.guardedRun_true _ _, ?_, rfl⟩
      rw [TransitionSystem.run_cons]
      exact Option.bind_eq_some_iff.mpr ⟨after, hinner, rfl⟩
    | loop => exact ⟨[], state.pool, trivial, rfl, rfl⟩

/-- Each loop is one of `Wakeup`. -/
theorem loop_simulation (num index : ℕ) : Simulation (system num : TransitionSystem (State Task) _)
    Wakeup.system (fun _ _ ↦ True) (fun _ _ ↦ True)
    fun state loop ↦ loop = state.loops index := by
  refine ⟨?_, ?_⟩
  · rintro state rfl
    exact ⟨_, rfl, rfl⟩
  · rintro state loop label next rfl - hstep
    cases moves_of_step hstep with
    | pool => exact ⟨[], state.loops index, trivial, rfl, rfl⟩
    | @loop other label after hthread hinner =>
      by_cases hother : other = index
      · subst hother
        refine ⟨[label], after, TransitionSystem.guardedRun_true _ _, ?_, by simp⟩
        rw [TransitionSystem.run_cons]
        exact Option.bind_eq_some_iff.mpr ⟨after, hinner, rfl⟩
      · refine ⟨[], state.loops index, trivial, rfl, ?_⟩
        exact (Function.update_of_ne (Ne.symm hother) after state.loops).symm

section Runs

variable {num : ℕ} {state final : State Task} {labels : List (Label Task)}

theorem pool_reachable (hreach : (system num).Reachable state) :
    (WorkerPool.system false num).Reachable state.pool := by
  obtain ⟨pool, hpool, rfl⟩ := (pool_simulation num).reaches hreach
  exact hpool

theorem loop_reachable (hreach : (system num).Reachable state) (index : ℕ) :
    Wakeup.system.Reachable (state.loops index) := by
  obtain ⟨loop, hloop, rfl⟩ := (loop_simulation num index).reaches hreach
  exact hloop

/-- Only a constructor pushes a loop. -/
theorem enqueued_of_step {inner : WorkerPool.Label ℕ} {before after : WorkerPool.State ℕ}
    (hstep : WorkerPool.step false before inner = some after) :
    (∃ task, inner = .enqueue task ∧ after.enqueued = before.enqueued ++ [task]) ∨
      (∀ task, inner ≠ .enqueue task) ∧ after.enqueued = before.enqueued := by
  cases WorkerPool.effect_of_step hstep with
  | enqueue task => exact .inl ⟨task, rfl, rfl⟩
  | wake hlabel => exact .inr ⟨by rintro task rfl; simp at hlabel, rfl⟩
  | _ => exact .inr ⟨nofun, rfl⟩

/-- The number of the next loop is pushed. -/
theorem eq_of_onPool_enqueue {label : Label Task} {task : ℕ}
    (hinner : onPool state label = some (.enqueue task)) : task = state.pool.enqueued.length := by
  cases label with
  | start =>
    cases hinner
    rfl
  | pool other => cases other <;> simp [onPool] at hinner
  | finish worker =>
    simp only [onPool] at hinner
    split at hinner
    · split_ifs at hinner
      cases hinner
    · cases hinner
  | loop => cases hinner

/-- The loops are pushed in order, each once. -/
theorem enqueued_of_reachable (hreach : (system num).Reachable state) :
    state.pool.enqueued = List.range state.pool.enqueued.length := by
  refine hreach.invariant
    (fun reached : State Task ↦ reached.pool.enqueued = List.range reached.pool.enqueued.length)
    ?_ ?_
  · rintro start rfl
    rfl
  · rintro before label after hrange - hstep
    cases moves_of_step hstep with
    | loop => exact hrange
    | @pool _ inner pool hinner hpool =>
      dsimp only
      rcases enqueued_of_step hpool with ⟨task, rfl, hpushed⟩ | ⟨-, hsame⟩
      · rw [hpushed, List.length_append, List.length_singleton, List.range_succ, ← hrange,
          eq_of_onPool_enqueue hinner]
      · rw [hsame]
        exact hrange

/-! ### The start -/

/-- The step is one of the workers of the pool, or a `notify_one`. -/
def Scheduling (label : Label Task) : Prop := ∃ inner, label = .pool inner ∧ Schedules inner

/-- The step of the pool that such a step is. -/
theorem onPool_of_schedules (state : State Task) {inner : WorkerPool.Label ℕ}
    (hschedules : Schedules inner) : onPool state (.pool inner) = some inner := by
  cases inner with
  | enqueue | finish => cases hschedules
  | _ => rfl

/-- Where none is enabled, the pool has none. -/
theorem stuck_pool {allowed : Label Task → Prop}
    (hallowed : ∀ inner, Schedules inner → allowed (.pool inner))
    (hstuck : (system num).Stuck allowed state) :
    (WorkerPool.system false num).Stuck Schedules state.pool := by
  intro inner hschedules
  have hnone : step state (.pool inner) = none := hstuck _ (hallowed inner hschedules)
  rw [step, onPool_of_schedules state hschedules, Option.bind_some,
    Option.map_eq_none_iff] at hnone
  · exact hnone
  · nofun

/-- What such a step does is a step of the pool. -/
theorem scheduling_step {next : State Task} {label : Label Task} (hscheduling : Scheduling label)
    (hstep : step state label = some next) :
    ∃ inner, Schedules inner ∧ WorkerPool.step false state.pool inner = some next.pool := by
  obtain ⟨inner, rfl, hschedules⟩ := hscheduling
  cases moves_of_step hstep with
  | @pool _ other pool hinner hpool =>
    rw [onPool_of_schedules state hschedules] at hinner
    cases hinner
    exact ⟨inner, hschedules, hpool⟩

/-- Such steps push no loop, end none, and are not of the destructor. -/
theorem kept_of_scheduling (hscheduling : ∀ label ∈ labels, Scheduling label)
    (hrun : (system num).run state labels = some final) :
    final.pool.enqueued = state.pool.enqueued ∧
      final.pool.destructor = state.pool.destructor ∧
      final.pool.finished = state.pool.finished := by
  refine TransitionSystem.run_invariant (fun reached : State Task ↦
    reached.pool.enqueued = state.pool.enqueued ∧
    reached.pool.destructor = state.pool.destructor ∧
    reached.pool.finished = state.pool.finished) ?_ hscheduling ⟨rfl, rfl, rfl⟩ hrun
  rintro before label after ⟨henqueued, hdestructor, hfinished⟩ hlabel hstep
  obtain ⟨inner, hschedules, hpool⟩ := scheduling_step hlabel hstep
  obtain ⟨hpushed, hsame⟩ := kept_of_settles (.inl hschedules) hpool
  exact ⟨hpushed.trans henqueued, hsame.trans hdestructor,
    (finished_of_schedules hschedules hpool).trans hfinished⟩

/-- Before the pool is destroyed, in every state of every run: its workers and calls of `notify_one`
make a bounded number of steps, in whatever order, until they have no more; and then, of the loops
that have been pushed, the first have returned or are being run, each by one worker: as many as have
returned and there are workers, or all. -/
theorem each_loop_runs (hreach : (system num).Reachable state)
    (hbefore : state.pool.destructor = .before) :
    (∃ labels final, (∀ label ∈ labels, Scheduling label) ∧
      (system num).run state labels = some final ∧ (system num).Stuck Scheduling final) ∧
    ∀ labels final, (∀ label ∈ labels, Scheduling label) →
      (system num).run state labels = some final →
        labels.length ≤ turns state.pool ∧
        ((system num).Stuck Scheduling final →
          state.pool.finished ++ final.pool.tpl.running ~
            List.range (min (state.pool.finished.length + num) state.pool.enqueued.length)) := by
  have hlower : ∀ (before : State Task) label (after : State Task), True → Scheduling label →
      (system num).step before label = some after →
        True ∧ turns after.pool < turns before.pool := by
    intro before label after _ hlabel hstep
    obtain ⟨inner, hschedules, hpool⟩ := scheduling_step hlabel hstep
    exact ⟨trivial, turns_lt_of_settles (.inl hschedules) hpool⟩
  refine ⟨TransitionSystem.exists_run_stuck (fun reached : State Task ↦ turns reached.pool) _ hlower
    trivial, fun labels final hlabels hrun ↦ ⟨?_, fun hstuck ↦ ?_⟩⟩
  · have hlength := TransitionSystem.length_add_measure_le
      (fun reached : State Task ↦ turns reached.pool) _ hlower hlabels trivial hrun
    omega
  · obtain ⟨henqueued, hdestructor, hfinished⟩ := kept_of_scheduling hlabels hrun
    have hfinal := hreach.of_run labels hrun
    obtain ⟨hlength, hfirst⟩ := running_of_stuck (pool_reachable hfinal)
      (hdestructor.trans hbefore) (stuck_pool (fun inner h ↦ ⟨inner, rfl, h⟩) hstuck)
    have hall := length_enqueued (WorkerPool.accounted_of_reachable (pool_reachable hreach))
    have hcount : min (final.pool.finished.length + final.pool.tpl.running.length)
        final.pool.enqueued.length =
          min (state.pool.finished.length + num) state.pool.enqueued.length := by
      rw [hlength, henqueued, hfinished]
      omega
    rw [enqueued_of_reachable hfinal, List.take_range, hcount, hfinished] at hfirst
    exact hfirst

/-- Three loops of a first server and two of a second, on the three workers of the first. -/
theorem each_loop_runs_second : ∃ final : State ℕ,
    final.pool.enqueued = [0, 1, 2, 3, 4] ∧ final.pool.tpl.running ~ [0, 1, 2] := by
  obtain ⟨state, hreach, hbefore, henqueued, hfinished⟩ : ∃ state : State ℕ,
      (system 3).Reachable state ∧ state.pool.destructor = .before ∧
        state.pool.enqueued = [0, 1, 2, 3, 4] ∧ state.pool.finished = [] :=
    ⟨_, .of_run (.initial rfl) [.pool (.test 0), .pool (.block 0), .start, .start, .start, .start,
      .start] rfl, rfl, rfl, rfl⟩
  obtain ⟨⟨labels, final, hlabels, hrun, hstuck⟩, hall⟩ := each_loop_runs hreach hbefore
  have hfirst := (hall labels final hlabels hrun).2 hstuck
  rw [henqueued, hfinished] at hfirst
  exact ⟨final, (kept_of_scheduling hlabels hrun).1.trans henqueued, hfirst⟩

/-! ### The end -/

/-- The step is one of a worker, of a `notify_one`, or of a loop while no descriptor but its
`eventfd` gets ready, where the handlers of some loops return. -/
def Down (handlersReturn : ℕ → Prop) : Label Task → Prop
  | .start => False
  | .pool inner => Schedules inner
  | .finish _ => True
  | .loop index label => Alone (handlersReturn index) label

/-- The pool after a `notify_all` that left no worker behind, and its loops after `stop`. -/
structure Stopping (num count : ℕ) (state : State Task) : Prop where
  closing : WorkerPool.Closing num state.pool
  accounted : WorkerPool.Accounted state.pool
  enqueued : state.pool.enqueued = List.range count
  loops : ∀ index < count, Woken (state.loops index) ∧ (state.loops index).stop = true ∧
    ∀ thread, (state.loops index).threads thread ≠ .stopped

/-- How many steps the workers and the loops have before them at most. -/
def remaining (count : ℕ) (state : State Task) : ℕ :=
  turns state.pool + ∑ index ∈ Finset.range count, ahead (state.loops index)

/-- A loop that is being run has been pushed. -/
theorem Stopping.index_lt {count index : ℕ} (hstopping : Stopping num count state)
    (hthread : .running index ∈ state.pool.threads) : index < count := by
  have hrunning : index ∈ state.pool.tpl.running := by
    rw [Tpl.running, WorkerPool.State.tpl, List.filterMap_map]
    exact List.mem_filterMap.mpr ⟨.running index, hthread, rfl⟩
  have htaken : index ∈ state.pool.taken :=
    hstopping.accounted.once.subset (List.mem_append_right _ hrunning)
  have hpushed : index ∈ state.pool.enqueued := by
    rw [← hstopping.accounted.fifo]
    exact List.mem_append_left _ htaken
  rw [hstopping.enqueued] at hpushed
  exact List.mem_range.mp hpushed

/-- A step of the loop on its own is one of its thread, and leaves the other threads where they
are. -/
theorem own_of_alone {handlersReturn : Prop} {label : Wakeup.Label Task}
    (halone : Alone handlersReturn label) : own label = true := by
  cases label with
  | push | write | call | assign => cases halone
  | _ => rfl

theorem threads_of_alone {handlersReturn : Prop} {label : Wakeup.Label Task}
    {loop after : Wakeup.State Task} (halone : Alone handlersReturn label)
    (heffect : Wakeup.Effect loop label after) : after.threads = loop.threads := by
  cases heffect with
  | push | accept | wake | call | assign => cases halone
  | _ => rfl

theorem pushes_of_alone {handlersReturn : Prop} {label : Wakeup.Label Task}
    (halone : Alone handlersReturn label) : pushes label = false := by
  cases label with
  | push => cases halone
  | _ => rfl

/-- The step of the pool is one that settles it. -/
theorem settles_of_down {handlersReturn : ℕ → Prop} {label : Label Task}
    {inner : WorkerPool.Label ℕ} (hdown : Down handlersReturn label)
    (hinner : onPool state label = some inner) : Settles inner := by
  cases label with
  | start => cases hdown
  | pool other =>
    rw [onPool_of_schedules state hdown] at hinner
    cases hinner
    exact .inl hdown
  | finish worker =>
    simp only [onPool] at hinner
    split at hinner
    · split_ifs at hinner
      cases hinner
      exact .inr ⟨worker, rfl⟩
    · cases hinner
  | loop => cases hinner

/-- A step keeps all stopping, and leaves less to do. -/
theorem Stopping.step {handlersReturn : ℕ → Prop} {count : ℕ} {next : State Task}
    {label : Label Task} (hstopping : Stopping num count state) (hdown : Down handlersReturn label)
    (hstep : LoopThreads.step state label = some next) :
    Stopping num count next ∧ remaining count next < remaining count state := by
  cases moves_of_step hstep with
  | @pool _ inner pool hinner hpool =>
    have hsettles := settles_of_down hdown hinner
    refine ⟨⟨hstopping.closing.step hpool, ?_, ?_, hstopping.loops⟩, ?_⟩
    · exact hstopping.accounted.seen
        (WorkerPool.seen_of_effect (WorkerPool.effect_of_step hpool))
    · exact (kept_of_settles hsettles hpool).1.trans hstopping.enqueued
    · have hlower := turns_lt_of_settles hsettles hpool
      simp only [remaining]
      omega
  | @loop index label loop hthread hloop =>
    have hindex := hstopping.index_lt (hthread (own_of_alone hdown))
    obtain ⟨hwoken, hstop, hnobody⟩ := hstopping.loops index hindex
    have heffect := Wakeup.effect_of_step hloop
    obtain ⟨hstays, hlower⟩ := ahead_effect hstop heffect
    refine ⟨⟨hstopping.closing, hstopping.accounted, hstopping.enqueued, fun other hother ↦ ?_⟩, ?_⟩
    · by_cases heq : other = index
      · subst heq
        simp only [Function.update_self]
        exact ⟨hwoken.effect heffect, hstays, (threads_of_alone hdown heffect).symm ▸ hnobody⟩
      · simp only [Function.update_of_ne heq]
        exact hstopping.loops other hother
    · have hsum := sum_range_update ahead state.loops hindex loop
      rw [own_of_alone hdown, pushes_of_alone hdown] at hlower
      simp only [remaining, Bool.toNat_true, Bool.toNat_false] at hlower ⊢
      omega

/-- When nobody has a step left, all workers have returned, but for those that are the threads of
loops in handlers that do not return. -/
theorem Stopping.returned_of_stuck {handlersReturn : ℕ → Prop} {count : ℕ}
    (hstopping : Stopping num count state)
    (hstuck : (system num).Stuck (Down handlersReturn) state) :
    ∀ thread ∈ state.pool.threads, thread = .returned ∨ ∃ index, thread = .running index ∧
      ¬ handlersReturn index ∧ ∃ wakeup, (state.loops index).phase = .handling wakeup := by
  have hsettled := settled_of_stuck hstopping.closing.inv (fun _ ↦ id)
    (stuck_pool (fun _ hschedules ↦ hschedules) hstuck)
  intro thread hmem
  rcases hsettled.threads thread hmem with rfl | hreturned | ⟨index, rfl⟩
  · exact absurd rfl (hstopping.closing.awake hstopping.closing.notified _ hmem).2
  · exact .inl hreturned
  · obtain ⟨hwoken, hstop, hnobody⟩ := hstopping.loops index (hstopping.index_lt hmem)
    refine .inr ⟨index, rfl, ?_⟩
    by_contra hgoes
    by_cases hphase : (state.loops index).phase = .returned
    · -- The worker comes back from `run`.
      obtain ⟨worker, hthread⟩ := List.mem_iff_getElem?.mp hmem
      have hnone : LoopThreads.step state (.finish worker) = none := hstuck (.finish worker) trivial
      simp [LoopThreads.step, onPool, hthread, hphase, WorkerPool.step] at hnone
    · -- The loop has a step.
      have hhandlers : ∀ wakeup, (state.loops index).phase = .handling wakeup →
          handlersReturn index := by
        intro wakeup hhandling
        by_contra hreturn
        exact hgoes ⟨hreturn, wakeup, hhandling⟩
      obtain ⟨label, halone, hsome⟩ := exists_alone hwoken hstop hphase hnobody hhandlers
      have hnone : LoopThreads.step state (.loop index label) = none :=
        hstuck (.loop index label) halone
      rw [LoopThreads.step, if_pos fun _ ↦ hmem, Option.map_eq_none_iff] at hnone
      rw [hnone] at hsome
      cases hsome

/-- In every state of every run after a `notify_all` of the pool that left no worker behind, when
`stop` has been called on every loop that was pushed: the workers and the loops make a bounded
number of steps, in whatever order, though no other descriptor gets ready, until nobody has one; and
then each worker has returned, or is the thread of a loop in handlers that do not return. When the
handlers of all loops return, all workers have returned. -/
theorem teardown {handlersReturn : ℕ → Prop} (hreach : (system num).Reachable state)
    (hnotified : state.pool.destructor = .notified) (hawake : WorkerPool.Awake state.pool)
    (hstop : ∀ index < state.pool.enqueued.length, (state.loops index).stop = true ∧
      ∀ thread, (state.loops index).threads thread ≠ .stopped) :
    (∃ labels final, (∀ label ∈ labels, Down handlersReturn label) ∧
      (system num).run state labels = some final ∧
      (system num).Stuck (Down handlersReturn) final) ∧
    ∀ labels final, (∀ label ∈ labels, Down handlersReturn label) →
      (system num).run state labels = some final →
        labels.length ≤ remaining state.pool.enqueued.length state ∧
        ((system num).Stuck (Down handlersReturn) final → ∀ thread ∈ final.pool.threads,
          thread = .returned ∨ ∃ index, thread = .running index ∧
            ¬ handlersReturn index ∧ ∃ wakeup, (final.loops index).phase = .handling wakeup) := by
  have hstopping : Stopping num state.pool.enqueued.length state :=
    ⟨⟨WorkerPool.inv_of_reachable (pool_reachable hreach), hnotified, hawake⟩,
      WorkerPool.accounted_of_reachable (pool_reachable hreach), enqueued_of_reachable hreach,
      fun index hindex ↦ ⟨woken_of_reachable (loop_reachable hreach index), hstop index hindex⟩⟩
  have hlower : ∀ (before : State Task) label (after : State Task),
      Stopping num state.pool.enqueued.length before → Down handlersReturn label →
        (system num).step before label = some after →
          Stopping num state.pool.enqueued.length after ∧
            remaining state.pool.enqueued.length after <
              remaining state.pool.enqueued.length before :=
    fun _ _ _ hbefore hlabel hstep ↦ hbefore.step hlabel hstep
  refine ⟨TransitionSystem.exists_run_stuck (remaining state.pool.enqueued.length) _ hlower
    hstopping, fun labels final hlabels hrun ↦ ⟨?_, fun hstuck ↦ ?_⟩⟩
  · have hlength := TransitionSystem.length_add_measure_le (remaining state.pool.enqueued.length) _
      hlower hlabels hstopping hrun
    omega
  · have hfinal : Stopping num state.pool.enqueued.length final :=
      TransitionSystem.run_invariant _
        (fun _ _ _ hbefore hlabel hstep ↦ (hlower _ _ _ hbefore hlabel hstep).1)
        hlabels hstopping hrun
    exact hfinal.returned_of_stuck hstuck

/-- One loop, which is in `epoll_wait` when it is told to stop. -/
theorem teardown_waiting :
    ∃ final : State ℕ, ∀ thread ∈ final.pool.threads, thread = .returned := by
  obtain ⟨state, hreach, hnotified, henqueued, hthreads, hstop, hnobody⟩ : ∃ state : State ℕ,
      (system 1).Reachable state ∧ state.pool.destructor = .notified ∧
        state.pool.enqueued = [0] ∧ state.pool.threads = [.running 0] ∧
        (state.loops 0).stop = true ∧ ∀ thread, (state.loops 0).threads thread ≠ .stopped := by
    refine ⟨_, .of_run (.initial rfl) [.start, .pool (.test 0), .pool (.take 0), .loop 0 .test,
      .loop 0 (.call 5), .loop 0 (.assign 5), .loop 0 (.write 5), .pool .store, .pool .notifyAll]
      rfl, rfl, rfl, rfl, rfl, fun thread ↦ ?_⟩
    by_cases hthread : thread = 5
    · subst hthread
      nofun
    · simp [Wakeup.State.put, State.new, Wakeup.State.new]
  have hawake : WorkerPool.Awake state.pool := by
    rintro -
    rw [hthreads]
    decide
  have hall : ∀ index < state.pool.enqueued.length, (state.loops index).stop = true ∧
      ∀ thread, (state.loops index).threads thread ≠ .stopped := by
    intro index hindex
    rw [henqueued] at hindex
    obtain rfl : index = 0 := Nat.lt_one_iff.mp hindex
    exact ⟨hstop, hnobody⟩
  obtain ⟨⟨labels, final, hlabels, hrun, hstuck⟩, hreturned⟩ :=
    @teardown _ _ _ (fun _ ↦ True) hreach hnotified hawake hall
  refine ⟨final, fun thread hthread ↦ ?_⟩
  refine ((hreturned labels final hlabels hrun).2 hstuck thread hthread).resolve_right ?_
  rintro ⟨_, _, hstays, _⟩
  exact hstays trivial

end Runs

end Steps

end Reactor.LoopThreads
