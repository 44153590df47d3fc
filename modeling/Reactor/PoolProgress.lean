import Reactor.WorkerPool
import Reactor.Library.Measure

/-!
# Progress of the worker pools

What the workers of `WorkerPool` do between two calls from outside. A step `Settles` when it is one
of the worker loop, the end of a task, or a `notify_one`; a push, the destructor and a spurious
wake-up are the steps that do not. Every step that settles lowers `turns`, so there are only so many
of them in a row.

`Roused` is what makes the notifications enough: while a worker is in the wait set, every task in
the queue has its own `notify_one` to come, or its own worker on the way to it. When the workers can
do no more, then no task is in the queue while a worker waits. What that means depends on the tasks.
Those of `Threadpool` are the loops, which do not return by themselves: of such tasks the pool runs
as many as it has workers, the first ones pushed (`work_conserving`). Those of `Tpl` do: of tasks
that return all have been run (`all_run`), and after a destructor that left nobody behind all
workers return, whatever the order of their steps (`joins`).
-/

set_option autoImplicit false
set_option relaxedAutoImplicit false

namespace Reactor.PoolProgress

open Library WorkerPool
open scoped List

section Pool

variable {Task : Type*}

/-- The step is one of a worker or a `notify_one`, and not the end of a task. -/
def Schedules : Label Task → Prop
  | .notifyOne _ | .test _ | .block _ | .take _ | .return _ => True
  | .enqueue _ | .finish _ | .spurious _ | .store | .notifyAll => False

/-- The step is one of these or the end of a task. -/
def Settles (label : Label Task) : Prop := Schedules label ∨ ∃ worker, label = .finish worker

/-- The step is one of these, where only some tasks return. -/
def Proceeds (returns : Task → Prop) (state : State Task) : Label Task → Prop
  | .finish worker => ∀ task, state.threads[worker]? = some (.running task) → returns task
  | label => Schedules label

/-- Neither a worker nor a `notify_one` has a step, where only some tasks return. -/
def Rests (locked : Bool) (returns : Task → Prop) (state : State Task) : Prop :=
  ∀ label, Proceeds returns state label → step locked state label = none

/-- How many steps a worker has before it at most, while it is not woken. -/
def turnsOf : Worker Task → ℕ
  | .running _ => 3
  | .ready => 2
  | .blocking | .passed => 1
  | .waiting | .returned => 0

/-- How many steps that settle a pool has before it at most. -/
def turns (state : State Task) : ℕ :=
  (state.threads.map turnsOf).sum + 3 * state.q.length + 3 * state.notifying

/-- One worker that is on its way to the queue. -/
def comes : Worker Task → ℕ
  | .ready | .passed => 1
  | .blocking | .waiting | .running _ | .returned => 0

/-- While a worker is in the wait set, the tasks in the queue are no more than the calls of
`notify_one` to come and the workers on their way. -/
structure Roused (state : State Task) : Prop where
  waiting : .waiting ∈ state.threads →
    state.q.length ≤ state.notifying + (state.threads.map comes).sum
  /-- Nothing has been pushed since the test failed. -/
  blocking : .blocking ∈ state.threads → state.q = []
  returned : .returned ∈ state.threads → state.stop = true

/-! ### Calls of `notify_one` -/

/-- A `notify_one` takes one of the calls to come. -/
theorem notifying_of_notifyOne {locked : Bool} {state next : State Task} {woken : Option ℕ}
    (hstep : step locked state (.notifyOne woken) = some next) :
    next.notifying + 1 = state.notifying := by
  cases woken with
  | none =>
    simp only [step, Option.ite_none_right_eq_some] at hstep
    obtain ⟨⟨hpending, -⟩, hnext⟩ := hstep
    cases hnext
    exact Nat.sub_add_cancel hpending
  | some worker =>
    simp only [step] at hstep
    split at hstep
    · split_ifs at hstep with hpending
      cases hstep
      exact Nat.sub_add_cancel hpending
    · cases hstep

/-- A spurious wake-up takes none. -/
theorem notifying_of_spurious {locked : Bool} {state next : State Task} {worker : ℕ}
    (hstep : step locked state (.spurious worker) = some next) :
    next.notifying = state.notifying := by
  simp only [step] at hstep
  split at hstep
  · cases hstep
    rfl
  · cases hstep

/-- A worker that is woken takes at most one. -/
theorem notifying_of_wake {locked : Bool} {state next : State Task} {label : Label Task}
    {worker : ℕ} (hlabel : label = .notifyOne (some worker) ∧ 0 < state.notifying ∨
      label = .spurious worker)
    (hstep : step locked state label = some next) : state.notifying ≤ next.notifying + 1 := by
  rcases hlabel with ⟨rfl, -⟩ | rfl
  · exact (notifying_of_notifyOne hstep).ge
  · rw [notifying_of_spurious hstep]
    exact Nat.le_succ _

/-! ### No wake-up is lost -/

/-- A step keeps the workers roused. -/
theorem Roused.step {locked : Bool} {num : ℕ} {state next : State Task} {label : Label Task}
    (hroused : Roused state) (hinv : Inv num state)
    (hstep : step locked state label = some next) : Roused next := by
  -- A worker that is still at a place was there before.
  have hwaiting : ∀ {worker : ℕ} {thread : Worker Task}, thread ≠ .waiting →
      .waiting ∈ state.threads.set worker thread →
        state.q.length ≤ state.notifying + (state.threads.map comes).sum :=
    fun hne hmem ↦ hroused.waiting (mem_of_mem_set hne hmem)
  have hblocking : ∀ {worker : ℕ} {thread : Worker Task}, thread ≠ .blocking →
      .blocking ∈ state.threads.set worker thread → state.q = [] :=
    fun hne hmem ↦ hroused.blocking (mem_of_mem_set hne hmem)
  have hreturned : ∀ {worker : ℕ} {thread : Worker Task}, thread ≠ .returned →
      .returned ∈ state.threads.set worker thread → state.stop = true :=
    fun hne hmem ↦ hroused.returned (mem_of_mem_set hne hmem)
  cases effect_of_step hstep with
  | enqueue task hfree =>
    refine ⟨fun hmem ↦ ?_, fun hmem ↦ ?_, hroused.returned⟩
    · have hold := hroused.waiting hmem
      simp only [List.length_append, List.length_singleton]
      omega
    · have hheld : Held state.threads none := hfree ▸ hinv.held
      cases hheld.holds_eq_false _ hmem
  | notifyNone hnone =>
    refine ⟨fun hmem ↦ ?_, hroused.blocking, hroused.returned⟩
    cases hnone _ hmem
  | @wake _ worker notifying hlabel hthread hnotifying =>
    refine ⟨fun hmem ↦ ?_, hblocking (by simp), hreturned (by simp)⟩
    have hold := hwaiting (by simp) hmem
    have hsum := sum_map_set comes hthread .ready
    have htaken : state.notifying ≤ notifying + 1 := notifying_of_wake hlabel hstep
    simp only [State.put, comes] at hsum ⊢
    omega
  | pass hthread hfree hpred =>
    refine ⟨fun hmem ↦ ?_, hblocking (by simp), hreturned (by simp)⟩
    have hold := hwaiting (by simp) hmem
    have hsum := sum_map_set comes hthread .passed
    simp only [State.put, comes] at hsum ⊢
    omega
  | fail hthread hfree hpred =>
    have hempty : state.q = [] := by
      rw [State.pred, Bool.or_eq_false_iff] at hpred
      simpa using hpred.1
    refine ⟨fun _ ↦ ?_, fun _ ↦ hempty, hreturned (by simp)⟩
    simp [State.put, hempty]
  | block hthread =>
    have hempty := hroused.blocking (List.mem_of_getElem? hthread)
    refine ⟨fun _ ↦ ?_, fun _ ↦ hempty, hreturned (by simp)⟩
    simp [State.put, hempty]
  | @take worker task rest hthread hq =>
    refine ⟨fun hmem ↦ ?_, fun hmem ↦ ?_, hreturned (by simp)⟩
    · have hold := hwaiting (by simp) hmem
      have hsum := sum_map_set comes hthread (.running task)
      rw [hq, List.length_cons] at hold
      simp only [State.put, comes] at hsum ⊢
      omega
    · have hempty := hblocking (by simp) hmem
      rw [hq] at hempty
      cases hempty
  | «return» hthread hstop hq =>
    refine ⟨fun _ ↦ ?_, fun _ ↦ hq, fun _ ↦ hstop⟩
    simp [State.put, hq]
  | @finish worker task hthread =>
    refine ⟨fun hmem ↦ ?_, hblocking (by simp), hreturned (by simp)⟩
    have hold := hwaiting (by simp) hmem
    have hsum := sum_map_set comes hthread .ready
    simp only [State.put, comes] at hsum ⊢
    omega
  | store => exact ⟨hroused.waiting, hroused.blocking, fun _ ↦ rfl⟩
  | notifyAll =>
    refine ⟨fun hmem ↦ ?_, fun hmem ↦ ?_, fun hmem ↦ ?_⟩
    · obtain ⟨thread, -, hwoken⟩ := List.mem_map.mp hmem
      cases thread <;> cases hwoken
    · obtain ⟨thread, hthread, hwoken⟩ := List.mem_map.mp hmem
      cases thread <;> cases hwoken
      exact hroused.blocking hthread
    · obtain ⟨thread, hthread, hwoken⟩ := List.mem_map.mp hmem
      cases thread <;> cases hwoken
      exact hroused.returned hthread

/-! ### Bounded runs -/

/-- A step that settles lowers the number of turns. -/
theorem turns_lt_of_settles {locked : Bool} {state next : State Task} {label : Label Task}
    (hsettles : Settles label) (hstep : step locked state label = some next) :
    turns next < turns state := by
  have heffect := effect_of_step hstep
  rcases hsettles with hschedules | ⟨worker, rfl⟩
  · cases heffect with
    | notifyNone hnone =>
      have htaken := notifying_of_notifyOne hstep
      simp only [turns] at htaken ⊢
      omega
    | @wake _ worker notifying hlabel hthread hnotifying =>
      rcases hlabel with ⟨rfl, -⟩ | rfl
      · have htaken : notifying + 1 = state.notifying := notifying_of_notifyOne hstep
        have hsum := sum_map_set turnsOf hthread .ready
        simp only [turns, State.put, turnsOf] at hsum ⊢
        omega
      · cases hschedules
    | pass hthread =>
      have hsum := sum_map_set turnsOf hthread .passed
      simp only [turns, State.put, turnsOf] at hsum ⊢
      omega
    | fail hthread =>
      have hsum := sum_map_set turnsOf hthread .blocking
      simp only [turns, State.put, turnsOf] at hsum ⊢
      omega
    | block hthread =>
      have hsum := sum_map_set turnsOf hthread .waiting
      simp only [turns, State.put, turnsOf] at hsum ⊢
      omega
    | @take worker task rest hthread hq =>
      have hsum := sum_map_set turnsOf hthread (.running task)
      simp only [turns, State.put, turnsOf, hq, List.length_cons] at hsum ⊢
      omega
    | «return» hthread =>
      have hsum := sum_map_set turnsOf hthread .returned
      simp only [turns, State.put, turnsOf] at hsum ⊢
      omega
    | enqueue | finish | store | notifyAll => cases hschedules
  · cases heffect with
    | wake hlabel => simp at hlabel
    | finish hthread =>
      have hsum := sum_map_set turnsOf hthread .ready
      simp only [turns, State.put, turnsOf] at hsum ⊢
      omega

/-! ### When nothing more can be done -/

/-- The pool when neither its workers nor a `notify_one` have a step. -/
structure Settled (state : State Task) : Prop where
  notifying : state.notifying = 0
  threads : ∀ thread ∈ state.threads,
    thread = .waiting ∨ thread = .returned ∨ ∃ task, thread = .running task

/-- A worker that is past `cv.wait` takes a task or returns. -/
theorem schedules_of_passed {locked : Bool} {num : ℕ} {state : State Task} (hinv : Inv num state)
    {worker : ℕ} (hthread : state.threads[worker]? = some .passed) :
    ∃ label, Schedules label ∧ (step locked state label).isSome = true := by
  have hpred := hinv.passed (List.mem_of_getElem? hthread)
  cases hq : state.q with
  | nil =>
    have hstop : state.stop = true := by simpa [State.pred, hq] using hpred
    exact ⟨.return worker, trivial, by simp [step, hthread, hstop, hq]⟩
  | cons task rest => exact ⟨.take worker, trivial, by simp [step, hthread, hq]⟩

/-- Somebody has a step in a pool that is not settled. -/
theorem exists_schedules {locked : Bool} {num : ℕ} {state : State Task} (hinv : Inv num state)
    (hunsettled : ¬ Settled state) :
    ∃ label, Schedules label ∧ (step locked state label).isSome = true := by
  by_cases hnotifying : state.notifying = 0
  · obtain ⟨thread, hmem, hplace⟩ : ∃ thread ∈ state.threads, ¬ (thread = .waiting ∨
        thread = .returned ∨ ∃ task, thread = .running task) := by
      by_contra hall
      exact hunsettled ⟨hnotifying, fun thread hmem ↦ not_not.mp fun hplace ↦
        hall ⟨thread, hmem, hplace⟩⟩
    obtain ⟨worker, hthread⟩ := List.mem_iff_getElem?.mp hmem
    cases thread with
    | ready =>
      cases hmtx : state.mtx with
      | none => exact ⟨.test worker, trivial, by simp [step, hmtx, hthread]⟩
      | some holder =>
        -- The holder of the mutex has a step.
        have hholds := (hinv.held holder).mpr hmtx
        cases hget : state.threads[holder]? with
        | none => simp [hget] at hholds
        | some other =>
          cases other with
          | passed => exact schedules_of_passed hinv hget
          | blocking => exact ⟨.block holder, trivial, by simp [step, hget]⟩
          | _ => simp [hget, Worker.holds] at hholds
    | blocking => exact ⟨.block worker, trivial, by simp [step, hthread]⟩
    | passed => exact schedules_of_passed hinv hthread
    | _ => simp at hplace
  · have hpending : 0 < state.notifying := Nat.pos_of_ne_zero hnotifying
    by_cases hwaits : ∀ thread ∈ state.threads, thread.waits = false
    · refine ⟨.notifyOne none, trivial, ?_⟩
      simp only [step]
      rw [if_pos ⟨hpending, hwaits⟩]
      rfl
    · obtain ⟨thread, hmem, hwaiting⟩ : ∃ thread ∈ state.threads, thread.waits ≠ false := by
        by_contra hall
        exact hwaits fun thread hmem ↦ not_not.mp fun hne ↦ hall ⟨thread, hmem, hne⟩
      obtain ⟨worker, hthread⟩ := List.mem_iff_getElem?.mp hmem
      cases thread with
      | waiting => exact ⟨.notifyOne (some worker), trivial, by simp [step, hthread, hpending]⟩
      | _ => exact absurd rfl hwaiting

/-- A pool in which no step of a worker or of a `notify_one` is enabled is settled. -/
theorem settled_of_stuck {locked : Bool} {num : ℕ} {state : State Task}
    {allowed : Label Task → Prop} (hinv : Inv num state)
    (hallowed : ∀ label, Schedules label → allowed label)
    (hstuck : (system locked num).Stuck allowed state) : Settled state := by
  by_contra hunsettled
  obtain ⟨label, hschedules, hsome⟩ := @exists_schedules _ locked _ _ hinv hunsettled
  have hnone : step locked state label = none := hstuck label (hallowed label hschedules)
  rw [hnone] at hsome
  cases hsome

/-- While a worker is in the wait set of a settled pool, the queue is empty. -/
theorem Settled.q_eq_nil {state : State Task} (hsettled : Settled state) (hroused : Roused state)
    (hwaiting : .waiting ∈ state.threads) : state.q = [] := by
  have hcomes : (state.threads.map comes).sum = 0 := by
    refine List.sum_eq_zero fun count hcount ↦ ?_
    obtain ⟨thread, hmem, rfl⟩ := List.mem_map.mp hcount
    rcases hsettled.threads thread hmem with rfl | rfl | ⟨task, rfl⟩ <;> rfl
  have hlength := hroused.waiting hwaiting
  rw [hsettled.notifying, hcomes] at hlength
  exact List.eq_nil_of_length_eq_zero (Nat.le_zero.mp hlength)

/-- A worker runs one task at most. -/
theorem length_running_le (state : State Task) :
    state.tpl.running.length ≤ state.threads.length := by
  have hle := List.length_filterMap_le WorkThread.task? (state.threads.map Worker.work)
  rwa [List.length_map] at hle

/-- While no worker waits and none has returned, each worker of a settled pool runs a task. -/
theorem Settled.length_running {state : State Task} (hsettled : Settled state)
    (hwaiting : .waiting ∉ state.threads) (hreturned : .returned ∉ state.threads) :
    state.tpl.running.length = state.threads.length := by
  have hall : state.tpl.running.length = (state.threads.map Worker.work).length := by
    refine List.filterMap_length_eq_length.mpr fun thread hthread ↦ ?_
    obtain ⟨worker, hmem, rfl⟩ := List.mem_map.mp hthread
    rcases hsettled.threads worker hmem with rfl | rfl | ⟨task, rfl⟩
    · exact absurd hmem hwaiting
    · exact absurd hmem hreturned
    · rfl
  rwa [List.length_map] at hall

/-- What has been pushed has been run, is being run, or is in the queue. -/
theorem length_enqueued {state : State Task} (haccounted : Accounted state) :
    state.enqueued.length =
      state.finished.length + state.tpl.running.length + state.q.length := by
  rw [← haccounted.fifo, List.length_append, ← haccounted.once.length_eq, List.length_append]

/-- Before the destructor, a settled pool runs as many tasks as it can. -/
theorem Settled.length_running_eq {num : ℕ} {state : State Task} (hsettled : Settled state)
    (hinv : Inv num state) (hroused : Roused state) (haccounted : Accounted state)
    (hbefore : state.destructor = .before) :
    state.tpl.running.length = min num (state.enqueued.length - state.finished.length) := by
  have hlength := length_enqueued haccounted
  have hle := length_running_le state
  rw [hinv.size] at hle
  by_cases hwaiting : .waiting ∈ state.threads
  · rw [hsettled.q_eq_nil hroused hwaiting, List.length_nil] at hlength
    omega
  · have hreturned : .returned ∉ state.threads :=
      fun hmem ↦ hinv.stopped.mp (hroused.returned hmem) hbefore
    have hall := hsettled.length_running hwaiting hreturned
    rw [hinv.size] at hall
    omega

/-! ### Runs -/

section Runs

variable {locked : Bool} {num : ℕ} {state final : State Task} {labels : List (Label Task)}

theorem roused_new (num : ℕ) : Roused (State.new num : State Task) := by
  refine ⟨fun hmem ↦ ?_, fun hmem ↦ ?_, fun hmem ↦ ?_⟩ <;> cases List.eq_of_mem_replicate hmem

theorem roused_of_reachable (hreach : (system locked num).Reachable state) : Roused state := by
  have hboth : Inv num state ∧ Roused state := by
    refine hreach.invariant (fun reached ↦ Inv num reached ∧ Roused reached) ?_ ?_
    · rintro start rfl
      exact ⟨inv_new num, roused_new num⟩
    · rintro before label after ⟨hinv, hroused⟩ - hstep
      exact ⟨hinv.effect (effect_of_step hstep), hroused.step hinv hstep⟩
  exact hboth.2

/-- A step that settles pushes nothing, and is not one of the destructor. -/
theorem kept_of_settles {next : State Task} {label : Label Task} (hsettles : Settles label)
    (hstep : step locked state label = some next) :
    next.enqueued = state.enqueued ∧ next.destructor = state.destructor := by
  rcases hsettles with hschedules | ⟨worker, rfl⟩
  · cases effect_of_step hstep with
    | enqueue | store | notifyAll => cases hschedules
    | _ => exact ⟨rfl, rfl⟩
  · cases effect_of_step hstep with
    | _ => exact ⟨rfl, rfl⟩

theorem kept_of_run (hsettles : ∀ label ∈ labels, Settles label)
    (hrun : (system locked num).run state labels = some final) :
    final.enqueued = state.enqueued ∧ final.destructor = state.destructor :=
  TransitionSystem.run_invariant
    (fun reached ↦ reached.enqueued = state.enqueued ∧ reached.destructor = state.destructor)
    (fun _ _ _ hkept hlabel hstep ↦ by
      obtain ⟨henqueued, hdestructor⟩ := kept_of_settles hlabel hstep
      exact ⟨henqueued.trans hkept.1, hdestructor.trans hkept.2⟩)
    hsettles ⟨rfl, rfl⟩ hrun

/-- A step that ends no task adds none to those that have been run. -/
theorem finished_of_schedules {next : State Task} {label : Label Task}
    (hschedules : Schedules label) (hstep : step locked state label = some next) :
    next.finished = state.finished := by
  cases effect_of_step hstep with
  | finish => cases hschedules
  | _ => rfl

theorem finished_of_run (hschedules : ∀ label ∈ labels, Schedules label)
    (hrun : (system locked num).run state labels = some final) :
    final.finished = state.finished :=
  TransitionSystem.run_invariant (fun reached ↦ reached.finished = state.finished)
    (fun _ _ _ hkept hlabel hstep ↦ (finished_of_schedules hlabel hstep).trans hkept)
    hschedules rfl hrun

/-- Steps that settle are few. -/
theorem length_le_turns {allowed : Label Task → Prop}
    (hallowed : ∀ label, allowed label → Settles label) (hlabels : ∀ label ∈ labels, allowed label)
    (hrun : (system locked num).run state labels = some final) : labels.length ≤ turns state := by
  have hlower := TransitionSystem.length_add_measure_le turns (fun _ ↦ True)
    (fun _ label _ _ hlabel hstep ↦ ⟨trivial, turns_lt_of_settles (hallowed label hlabel) hstep⟩)
    hlabels trivial hrun
  omega

/-- There are enough of them to come to an end. -/
theorem exists_run_settled {allowed : Label Task → Prop}
    (hallowed : ∀ label, allowed label → Settles label) (state : State Task) :
    ∃ labels final, (∀ label ∈ labels, allowed label) ∧
      (system locked num).run state labels = some final ∧
      (system locked num).Stuck allowed final :=
  TransitionSystem.exists_run_stuck turns (fun _ ↦ True)
    (fun _ label _ _ hlabel hstep ↦ ⟨trivial, turns_lt_of_settles (hallowed label hlabel) hstep⟩)
    trivial

/-- Before the destructor, where no worker and no `notify_one` has a step, the pool runs as many of
the tasks that have not been run as it has workers, the first ones pushed. -/
theorem running_of_stuck (hreach : (system locked num).Reachable state)
    (hbefore : state.destructor = .before) (hstuck : (system locked num).Stuck Schedules state) :
    state.tpl.running.length = min num (state.enqueued.length - state.finished.length) ∧
      state.finished ++ state.tpl.running ~
        state.enqueued.take (state.finished.length + state.tpl.running.length) := by
  have hinv := inv_of_reachable hreach
  have haccounted := accounted_of_reachable hreach
  have hsettled := settled_of_stuck hinv (fun _ ↦ id) hstuck
  refine ⟨hsettled.length_running_eq hinv (roused_of_reachable hreach) haccounted hbefore, ?_⟩
  have htaken : state.taken =
      state.enqueued.take (state.finished.length + state.tpl.running.length) := by
    rw [← haccounted.fifo, ← List.length_append, haccounted.once.length_eq, List.take_left]
  rw [← htaken]
  exact haccounted.once

/-- Before the destructor, in every state of every run: while no task returns, the workers make a
bounded number of steps, in whatever order, until they have no more; and then the pool runs as many
of the tasks that have not been run as it has workers, the first ones pushed. -/
theorem work_conserving (hreach : (system locked num).Reachable state)
    (hbefore : state.destructor = .before) :
    (∃ labels final, (∀ label ∈ labels, Schedules label) ∧
      (system locked num).run state labels = some final ∧
      (system locked num).Stuck Schedules final) ∧
    ∀ labels final, (∀ label ∈ labels, Schedules label) →
      (system locked num).run state labels = some final →
        labels.length ≤ turns state ∧
        ((system locked num).Stuck Schedules final →
          final.tpl.running.length = min num (state.enqueued.length - state.finished.length) ∧
          state.finished ++ final.tpl.running ~ state.enqueued.take
            (state.finished.length + final.tpl.running.length)) := by
  have hsettles : ∀ label : Label Task, Schedules label → Settles label := fun _ ↦ .inl
  refine ⟨exists_run_settled hsettles state, fun labels final hlabels hrun ↦
    ⟨length_le_turns hsettles hlabels hrun, fun hstuck ↦ ?_⟩⟩
  obtain ⟨henqueued, hdestructor⟩ :=
    kept_of_run (fun label hmem ↦ hsettles label (hlabels label hmem)) hrun
  have hfirst := running_of_stuck (hreach.of_run labels hrun) (hdestructor.trans hbefore) hstuck
  rwa [henqueued, finished_of_run hlabels hrun] at hfirst

/-- Of three tasks pushed to two workers, two are being run. -/
theorem work_conserving_three :
    ∃ final : State ℕ, final.tpl.running.length = 2 ∧ final.tpl.running ~ [7, 8] := by
  obtain ⟨state, hreach, hbefore, henqueued, hfinished⟩ : ∃ state : State ℕ,
      (system false 2).Reachable state ∧ state.destructor = .before ∧
        state.enqueued = [7, 8, 9] ∧ state.finished = [] :=
    ⟨_, .of_run (.initial rfl) [.test 0, .block 0, .enqueue 7, .enqueue 8, .enqueue 9] rfl, rfl,
      rfl, rfl⟩
  obtain ⟨⟨labels, final, hlabels, hrun, hstuck⟩, hall⟩ := work_conserving hreach hbefore
  obtain ⟨hlength, hfirst⟩ := (hall labels final hlabels hrun).2 hstuck
  rw [henqueued, hfinished] at hlength hfirst
  have htwo : final.tpl.running.length = 2 := hlength
  rw [htwo] at hfirst
  exact ⟨final, htwo, hfirst⟩

/-- Where the end of a task is a step too, no task is left running. -/
theorem running_notMem_of_stuck (hstuck : (system locked num).Stuck Settles state) (task : Task) :
    .running task ∉ state.threads := by
  intro hmem
  obtain ⟨worker, hthread⟩ := List.mem_iff_getElem?.mp hmem
  have hnone : step locked state (.finish worker) = none :=
    hstuck (.finish worker) (.inr ⟨worker, rfl⟩)
  simp [step, hthread] at hnone

/-- A task that is being run has been pushed. -/
theorem mem_enqueued_of_running (haccounted : Accounted state) {task : Task}
    (hthread : .running task ∈ state.threads) : task ∈ state.enqueued := by
  have hrunning : task ∈ state.tpl.running := by
    rw [Tpl.running, State.tpl, List.filterMap_map]
    exact List.mem_filterMap.mpr ⟨.running task, hthread, rfl⟩
  rw [← haccounted.fifo]
  exact List.mem_append_left _ (haccounted.once.subset (List.mem_append_right _ hrunning))

/-- Where every task pushed returns, the end of a task is a step like the others. -/
theorem proceeds_iff {returns : Task → Prop} (haccounted : Accounted state)
    (hreturns : ∀ task ∈ state.enqueued, returns task) (label : Label Task) :
    Proceeds returns state label ↔ Settles label := by
  have hschedules : (∀ worker, label ≠ .finish worker) →
      (Proceeds returns state label ↔ Schedules label) := fun hne ↦ by
    cases label with
    | finish worker => exact absurd rfl (hne worker)
    | _ => exact Iff.rfl
  by_cases hfinish : ∃ worker, label = .finish worker
  · obtain ⟨worker, rfl⟩ := hfinish
    refine iff_of_true (fun task hthread ↦ ?_) (.inr ⟨worker, rfl⟩)
    exact hreturns task (mem_enqueued_of_running haccounted (List.mem_of_getElem? hthread))
  · rw [hschedules (not_exists.mp hfinish), Settles, or_iff_left hfinish]

/-- Along a run in which every task pushed returns, too. -/
theorem guardedRun_proceeds_iff {returns : Task → Prop}
    (hreach : (system locked num).Reachable state)
    (hreturns : ∀ task ∈ state.enqueued, returns task)
    (hrun : (system locked num).run state labels = some final) :
    (system locked num).GuardedRun (Proceeds returns) state labels ↔
      ∀ label ∈ labels, Settles label := by
  induction labels generalizing state with
  | nil => exact iff_of_true trivial (List.forall_mem_nil _)
  | cons label rest ih =>
    rw [TransitionSystem.run_cons, Option.bind_eq_some_iff] at hrun
    obtain ⟨next, hstep, hrest⟩ := hrun
    rw [List.forall_mem_cons, TransitionSystem.GuardedRun, hstep,
      proceeds_iff (accounted_of_reachable hreach) hreturns]
    refine and_congr_right fun hsettles ↦ ih (hreach.step trivial hstep) ?_ hrest
    rwa [(kept_of_settles hsettles hstep).1]

/-- Where all tasks pushed have returned, a pool in which nobody has a step has run them all. -/
theorem finished_of_stuck (hnum : 1 ≤ num) (hreach : (system locked num).Reachable state)
    (hbefore : state.destructor = .before) (hstuck : (system locked num).Stuck Settles state) :
    state.finished ~ state.enqueued ∧ ∀ thread ∈ state.threads, thread = .waiting := by
  have hinv := inv_of_reachable hreach
  have haccounted := accounted_of_reachable hreach
  have hroused := roused_of_reachable hreach
  have hsettled := settled_of_stuck hinv (fun _ ↦ .inl) hstuck
  have hwaiting : ∀ thread ∈ state.threads, thread = .waiting := by
    intro thread hmem
    rcases hsettled.threads thread hmem with hwaiting | rfl | ⟨task, rfl⟩
    · exact hwaiting
    · exact absurd hbefore (hinv.stopped.mp (hroused.returned hmem))
    · exact absurd hmem (running_notMem_of_stuck hstuck task)
  refine ⟨?_, hwaiting⟩
  have hlength : 0 < state.threads.length := by rw [hinv.size]; exact hnum
  obtain ⟨thread, hthread⟩ := List.exists_mem_of_length_pos hlength
  have hempty := hsettled.q_eq_nil hroused (hwaiting thread hthread ▸ hthread)
  have hrunning : state.tpl.running = [] := by
    rw [Tpl.running, State.tpl, List.filterMap_map, List.filterMap_eq_nil_iff]
    intro other hother
    rw [hwaiting other hother]
    rfl
  have htaken := haccounted.once
  have hfifo := haccounted.fifo
  rw [hrunning, List.append_nil] at htaken
  rw [hempty, List.append_nil] at hfifo
  rwa [hfifo] at htaken

/-- With at least one worker, before the destructor, in every state of every run in which every task
pushed is one that returns: while nothing is pushed, the workers make a bounded number of steps, in
whatever order, until they have no more; and then every task pushed has been run, once, and all
workers wait. A task that does not return has no end among these steps. -/
theorem all_run {returns : Task → Prop} (hnum : 1 ≤ num)
    (hreach : (system locked num).Reachable state) (hbefore : state.destructor = .before)
    (hreturns : ∀ task ∈ state.enqueued, returns task) :
    (∃ labels final, (system locked num).GuardedRun (Proceeds returns) state labels ∧
      (system locked num).run state labels = some final ∧ Rests locked returns final) ∧
    ∀ labels final, (system locked num).GuardedRun (Proceeds returns) state labels →
      (system locked num).run state labels = some final →
        labels.length ≤ turns state ∧
        (Rests locked returns final →
          final.finished ~ state.enqueued ∧ ∀ thread ∈ final.threads, thread = .waiting) := by
  have hrests : ∀ {labels final}, (∀ label ∈ labels, Settles label) →
      (system locked num).run state labels = some final →
        (Rests locked returns final ↔ (system locked num).Stuck Settles final) := by
    intro labels final hlabels hrun
    have haccounted := accounted_of_reachable (hreach.of_run labels hrun)
    have hkept := (kept_of_run hlabels hrun).1
    exact forall_congr' fun label ↦
      imp_congr_left (proceeds_iff haccounted (hkept ▸ hreturns) label)
  refine ⟨?_, fun labels final hguarded hrun ↦ ?_⟩
  · obtain ⟨labels, final, hlabels, hrun, hstuck⟩ : ∃ labels final,
        (∀ label ∈ labels, Settles label) ∧ (system locked num).run state labels = some final ∧
          (system locked num).Stuck Settles final := exists_run_settled (fun _ ↦ id) state
    exact ⟨labels, final, (guardedRun_proceeds_iff hreach hreturns hrun).mpr hlabels, hrun,
      (hrests hlabels hrun).mpr hstuck⟩
  · have hlabels := (guardedRun_proceeds_iff hreach hreturns hrun).mp hguarded
    refine ⟨length_le_turns (fun _ ↦ id) hlabels hrun, fun hrest ↦ ?_⟩
    obtain ⟨henqueued, hdestructor⟩ := kept_of_run hlabels hrun
    have hall := finished_of_stuck hnum (hreach.of_run labels hrun) (hdestructor.trans hbefore)
      ((hrests hlabels hrun).mp hrest)
    rwa [henqueued] at hall

/-- A pool with one worker that waits runs the task it is given, which returns as all tasks below
`9` do. -/
theorem all_run_one : ∃ final : State ℕ, final.finished ~ [7] := by
  obtain ⟨state, hreach, hbefore, henqueued⟩ : ∃ state : State ℕ,
      (system false 1).Reachable state ∧ state.destructor = .before ∧ state.enqueued = [7] :=
    ⟨_, .of_run (.initial rfl) [.test 0, .block 0, .enqueue 7] rfl, rfl, rfl⟩
  have hreturns : ∀ task ∈ state.enqueued, task < 9 := by
    rw [henqueued]
    decide
  obtain ⟨⟨labels, final, hlabels, hrun, hrests⟩, hall⟩ :=
    all_run (by decide) hreach hbefore hreturns
  exact ⟨final, henqueued ▸ ((hall labels final hlabels hrun).2 hrests).1⟩

/-- A worker that returns in a run without pushes has left an empty queue. -/
theorem leftEmpty_of_run (hreach : (system locked num).ReachesUnder PushesFirst state)
    (hlabels : ∀ label ∈ labels, Settles label)
    (hrun : (system locked num).run state labels = some final) : LeftEmpty final := by
  have hboth : Inv num final ∧ LeftEmpty final := by
    refine TransitionSystem.run_invariant (fun reached ↦ Inv num reached ∧ LeftEmpty reached) ?_
      hlabels ⟨inv_of_reachable hreach.reachable, leftEmpty_of_reachesUnder hreach⟩ hrun
    rintro before label after ⟨hinv, hleft⟩ hlabel hstep
    have heffect := effect_of_step hstep
    refine ⟨hinv.effect heffect, hleft.effect hinv ?_ heffect⟩
    cases label with
    | enqueue => rcases hlabel with hschedules | ⟨_, heq⟩ <;> contradiction
    | _ => trivial
  exact hboth.2

/-- With at least one worker and tasks that return, in every state of every run in which tasks are
pushed first, after a `notify_all` that left nobody behind (as one under the lock does): the workers
make a bounded number of steps, in whatever order, until they have no more; and then all of them
have returned, and every task pushed has been run, once. -/
theorem joins (hnum : 1 ≤ num) (hreach : (system locked num).ReachesUnder PushesFirst state)
    (hnotified : state.destructor = .notified) (hawake : locked = true ∨ Awake state) :
    (∃ labels final, (∀ label ∈ labels, Settles label) ∧
      (system locked num).run state labels = some final ∧
      (system locked num).Stuck Settles final) ∧
    ∀ labels final, (∀ label ∈ labels, Settles label) →
      (system locked num).run state labels = some final →
        labels.length ≤ turns state ∧
        ((system locked num).Stuck Settles final →
          (∀ thread ∈ final.threads, thread = .returned) ∧ final.finished ~ state.enqueued) := by
  have hclosing : Closing num state := by
    refine ⟨inv_of_reachable hreach.reachable, hnotified, ?_⟩
    rcases hawake with rfl | hawake
    · exact (unblocked_of_locked hreach.reachable).2.2
    · exact hawake
  refine ⟨exists_run_settled (fun _ ↦ id) state, fun labels final hlabels hrun ↦
    ⟨length_le_turns (fun _ ↦ id) hlabels hrun, fun hstuck ↦ ?_⟩⟩
  have hfinal := hreach.reachable.of_run labels hrun
  obtain ⟨henqueued, -⟩ := kept_of_run hlabels hrun
  have hclosed : Closing num final :=
    TransitionSystem.run_invariant (Closing num) (fun _ _ _ hstate _ hstep ↦ hstate.step hstep)
      hlabels hclosing hrun
  have hsettled := settled_of_stuck hclosed.inv (fun _ ↦ .inl) hstuck
  have hreturned : ∀ thread ∈ final.threads, thread = .returned := by
    intro thread hmem
    rcases hsettled.threads thread hmem with rfl | hreturned | ⟨task, rfl⟩
    · exact absurd rfl (hclosed.awake hclosed.notified _ hmem).2
    · exact hreturned
    · exact absurd hmem (running_notMem_of_stuck hstuck task)
  refine ⟨hreturned, ?_⟩
  have hlength : 0 < final.threads.length := by rw [hclosed.inv.size]; exact hnum
  obtain ⟨thread, hthread⟩ := List.exists_mem_of_length_pos hlength
  have hempty := (leftEmpty_of_run hreach hlabels hrun (hreturned thread hthread ▸ hthread)).2
  obtain ⟨hfifo, htaken⟩ := accounted_of_reachable hfinal
  rw [running_of_returned hreturned, List.append_nil] at htaken
  rw [hempty, List.append_nil, henqueued] at hfifo
  rwa [hfifo] at htaken

/-- Two workers, one of them waiting and one running a task, are told to stop. -/
theorem joins_two : ∃ final : State ℕ,
    (∀ thread ∈ final.threads, thread = .returned) ∧ final.finished ~ [7] := by
  obtain ⟨state, hreach, hnotified, hawake, henqueued⟩ : ∃ state : State ℕ,
      (system false 2).ReachesUnder PushesFirst state ∧ state.destructor = .notified ∧
        Awake state ∧ state.enqueued = [7] := by
    refine ⟨_, .of_run (.initial rfl) [.test 0, .block 0, .enqueue 7, .test 1, .take 1, .store,
      .notifyAll] ?_ rfl, rfl, ?_, rfl⟩
    · decide
    · rintro -
      decide
  obtain ⟨⟨labels, final, hlabels, hrun, hstuck⟩, hall⟩ :=
    joins (by decide) hreach hnotified (.inr hawake)
  obtain ⟨hreturned, hfinished⟩ := (hall labels final hlabels hrun).2 hstuck
  exact ⟨final, hreturned, henqueued ▸ hfinished⟩

end Runs

end Pool

end Reactor.PoolProgress
