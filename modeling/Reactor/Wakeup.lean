import Reactor.Tpl
import Reactor.Library.TransitionSystem

/-!
# Waking and stopping an event loop

`EventLoop::run` of a loop with an `eventfd`, and the threads that call `addtask` and `stop` on it.
A call of `addtask` is the push and then the write of the `eventfd`; a call of `stop` is the
assignment of `stop_` and then the write. `handle_wakeup` reads the `eventfd`, locks the mutex, and
runs tasks until it finds the queue empty. `step` has one label for each of these, for any number of
threads; the loop tests `stop_` only between two batches.

The tasks are numbered in the order of their pushes. `accepted` are the tasks whose call of
`addtask` has returned, and `promised` those that were accepted when `stop` was called.

A pushed task is never forgotten: the `eventfd` can be read, or a thread is about to write it, or
the loop is about to look at the queue (`not_lost`). A promised task can be: when `stop_` is
assigned while the loop is past the wake-up channel of its batch, `run` returns with the task in the
queue. `promises_kept_iff` says exactly when it does not.
-/

set_option autoImplicit false
set_option relaxedAutoImplicit false

namespace Reactor

namespace EventLoop

variable {Task : Type*}

/-- `handle_wakeup` reads the `eventfd`. -/
def read (loop : EventLoop Task) : EventLoop Task := { loop with eventfd := 0 }

/-- `handle_wakeup` locks the mutex. -/
def lock (loop : EventLoop Task) : Option (EventLoop Task) :=
  if loop.draining then none else some { loop with draining := true }

/-- The beginning of `handle_wakeup` is the read and the lock. -/
theorem handleWakeup_eq (loop : EventLoop Task) :
    loop.handleWakeup = if 0 < loop.eventfd then loop.read.lock else none := by
  obtain ⟨taskQueue, eventfd, draining⟩ := loop
  cases draining <;> simp [handleWakeup, read, lock]

end EventLoop

namespace Wakeup

open Library

/-- Where the thread of the loop is in `run`. -/
inductive Phase
  /-- It is about to test `stop_`. -/
  | testing
  /-- It is in `epoll_wait`. -/
  | waiting
  /-- It handles a batch, in which the wake-up channel is still to come or is not. -/
  | handling (wakeup : Bool)
  /-- It is in `handle_wakeup`, past the read. -/
  | locking
  /-- It is in `handle_wakeup`, holding the mutex. -/
  | draining
  | returned
  deriving DecidableEq

/-- Where another thread is in `addtask` or `stop`. -/
inductive Caller
  | idle
  /-- It has pushed the task with this number. -/
  | waking (index : ℕ)
  /-- It has called `stop`. -/
  | stopping
  /-- It has assigned `stop_`. -/
  | stopped
  deriving DecidableEq

structure State (Task : Type*) where
  loop : EventLoop Task
  phase : Phase
  stop : Bool
  threads : ℕ → Caller
  /-- The tasks pushed and the tasks started, in order. -/
  pushed : List Task
  started : List Task
  /-- The numbers of the tasks whose call of `addtask` has returned. -/
  accepted : List ℕ
  /-- `stop` has been called. -/
  called : Bool
  /-- The numbers of the tasks accepted before the first call of `stop`. -/
  promised : List ℕ

inductive Label (Task : Type*)
  | push (thread : ℕ) (task : Task)
  | write (thread : ℕ)
  | call (thread : ℕ)
  | assign (thread : ℕ)
  | test
  | epollWait (reported : Bool)
  | read
  | lock
  | runTask
  | release
  | handled

section Steps

variable {Task : Type*}

/-- A thread goes on. -/
def State.put (state : State Task) (thread : ℕ) (caller : Caller) : State Task :=
  { state with threads := Function.update state.threads thread caller }

def step (state : State Task) : Label Task → Option (State Task)
  | .push thread task =>
    match state.threads thread with
    | .idle =>
      (state.loop.push task).map fun loop ↦
        { state.put thread (.waking state.pushed.length) with
          loop, pushed := state.pushed ++ [task] }
    | _ => none
  | .write thread =>
    match state.threads thread with
    | .waking index =>
      some { state.put thread .idle with
        loop := state.loop.wakeup, accepted := state.accepted ++ [index] }
    | .stopped => some { state.put thread .idle with loop := state.loop.wakeup }
    | _ => none
  | .call thread =>
    match state.threads thread with
    | .idle =>
      some { state.put thread .stopping with
        called := true, promised := if state.called then state.promised else state.accepted }
    | _ => none
  | .assign thread =>
    match state.threads thread with
    | .stopping => some { state.put thread .stopped with stop := true }
    | _ => none
  | .test =>
    match state.phase with
    | .testing => some { state with phase := if state.stop then .returned else .waiting }
    | _ => none
  | .epollWait reported =>
    match state.phase with
    | .waiting =>
      if reported = true → 0 < state.loop.eventfd then
        some { state with phase := .handling reported }
      else none
    | _ => none
  | .read =>
    match state.phase with
    | .handling true => some { state with loop := state.loop.read, phase := .locking }
    | _ => none
  | .lock =>
    match state.phase with
    | .locking => state.loop.lock.map fun loop ↦ { state with loop, phase := .draining }
    | _ => none
  | .runTask =>
    match state.phase with
    | .draining =>
      state.loop.pop.map fun (task, loop) ↦
        { state with loop, started := state.started ++ [task] }
    | _ => none
  | .release =>
    match state.phase with
    | .draining => state.loop.release.map fun loop ↦ { state with loop, phase := .handling false }
    | _ => none
  | .handled =>
    match state.phase with
    | .handling false => some { state with phase := .testing }
    | _ => none

/-- Before `run`, and before any call. -/
def State.new : State Task where
  loop := .new
  phase := .testing
  stop := false
  threads := fun _ ↦ .idle
  pushed := []
  started := []
  accepted := []
  called := false
  promised := []

/-- The loop and the threads that call it. -/
def system : TransitionSystem (State Task) (Label Task) where
  initial := fun state ↦ state = .new
  step := step

/-! ### What a step does -/

/-- The effect of a step. -/
inductive Effect (state : State Task) : Label Task → State Task → Prop
  | push {thread : ℕ} (task : Task) (hthread : state.threads thread = .idle)
      (hfree : state.loop.draining = false) :
      Effect state (.push thread task)
        { state.put thread (.waking state.pushed.length) with
          loop := { state.loop with taskQueue := state.loop.taskQueue ++ [task] }
          pushed := state.pushed ++ [task] }
  | accept {thread index : ℕ} (hthread : state.threads thread = .waking index) :
      Effect state (.write thread)
        { state.put thread .idle with
          loop := state.loop.wakeup, accepted := state.accepted ++ [index] }
  | wake {thread : ℕ} (hthread : state.threads thread = .stopped) :
      Effect state (.write thread) { state.put thread .idle with loop := state.loop.wakeup }
  | call {thread : ℕ} (hthread : state.threads thread = .idle) :
      Effect state (.call thread)
        { state.put thread .stopping with
          called := true, promised := if state.called then state.promised else state.accepted }
  | assign {thread : ℕ} (hthread : state.threads thread = .stopping) :
      Effect state (.assign thread) { state.put thread .stopped with stop := true }
  | goOn (hphase : state.phase = .testing) (hstop : state.stop = false) :
      Effect state .test { state with phase := .waiting }
  | leave (hphase : state.phase = .testing) (hstop : state.stop = true) :
      Effect state .test { state with phase := .returned }
  | epollWait {reported : Bool} (hphase : state.phase = .waiting) :
      Effect state (.epollWait reported) { state with phase := .handling reported }
  | read (hphase : state.phase = .handling true) :
      Effect state .read { state with loop := state.loop.read, phase := .locking }
  | lock (hphase : state.phase = .locking) :
      Effect state .lock
        { state with loop := { state.loop with draining := true }, phase := .draining }
  | runTask {task : Task} {rest : List Task} (hphase : state.phase = .draining)
      (hqueue : state.loop.taskQueue = task :: rest) :
      Effect state .runTask
        { state with
          loop := { state.loop with taskQueue := rest }, started := state.started ++ [task] }
  | release (hphase : state.phase = .draining) (hqueue : state.loop.taskQueue = []) :
      Effect state .release
        { state with loop := { state.loop with draining := false }, phase := .handling false }
  | handled (hphase : state.phase = .handling false) :
      Effect state .handled { state with phase := .testing }

theorem effect_of_step {state next : State Task} {label : Label Task}
    (hstep : step state label = some next) : Effect state label next := by
  cases label with
  | push thread task =>
    simp only [step] at hstep
    split at hstep
    · rename_i hthread
      obtain ⟨loop, hpush, rfl⟩ := Option.map_eq_some_iff.mp hstep
      obtain ⟨hfree, rfl⟩ := EventLoop.push_eq_some hpush
      exact .push task hthread hfree
    · cases hstep
  | write thread =>
    simp only [step] at hstep
    split at hstep
    · rename_i index hthread
      cases hstep
      exact .accept hthread
    · rename_i hthread
      cases hstep
      exact .wake hthread
    · cases hstep
  | call thread =>
    simp only [step] at hstep
    split at hstep
    · rename_i hthread
      cases hstep
      exact .call hthread
    · cases hstep
  | assign thread =>
    simp only [step] at hstep
    split at hstep
    · rename_i hthread
      cases hstep
      exact .assign hthread
    · cases hstep
  | test =>
    simp only [step] at hstep
    split at hstep
    · rename_i hphase
      cases hstep
      by_cases hstop : state.stop = true
      · rw [if_pos hstop]
        exact .leave hphase hstop
      · rw [if_neg hstop]
        exact .goOn hphase (by simpa using hstop)
    · cases hstep
  | epollWait reported =>
    simp only [step] at hstep
    split at hstep
    · rename_i hphase
      split_ifs at hstep
      cases hstep
      exact .epollWait hphase
    · cases hstep
  | read =>
    simp only [step] at hstep
    split at hstep
    · rename_i hphase
      cases hstep
      exact .read hphase
    · cases hstep
  | lock =>
    simp only [step] at hstep
    split at hstep
    · rename_i hphase
      obtain ⟨loop, hlock, rfl⟩ := Option.map_eq_some_iff.mp hstep
      unfold EventLoop.lock at hlock
      split_ifs at hlock
      cases hlock
      exact .lock hphase
    · cases hstep
  | runTask =>
    simp only [step] at hstep
    split at hstep
    · rename_i hphase
      obtain ⟨⟨task, loop⟩, hpop, rfl⟩ := Option.map_eq_some_iff.mp hstep
      obtain ⟨-, hqueue, hloop⟩ := EventLoop.pop_eq_some hpop
      rw [hloop]
      exact .runTask hphase hqueue
    · cases hstep
  | release =>
    simp only [step] at hstep
    split at hstep
    · rename_i hphase
      obtain ⟨loop, hrelease, rfl⟩ := Option.map_eq_some_iff.mp hstep
      obtain ⟨-, hqueue, rfl⟩ := EventLoop.release_eq_some hrelease
      exact .release hphase hqueue
    · cases hstep
  | handled =>
    simp only [step] at hstep
    split at hstep
    · rename_i hphase
      cases hstep
      exact .handled hphase
    · cases hstep

/-! ### No task is forgotten -/

/-- The loop is in `handle_wakeup`, before its last look at the queue. -/
def Phase.looks : Phase → Bool
  | .locking | .draining => true
  | _ => false

/-- What holds in every state of every run: tasks are started in the order of their pushes, a task
is accepted or its thread is about to write, and while an accepted task is in the queue the loop is
about to look there or can be woken. -/
structure Inv (state : State Task) : Prop where
  order : state.started ++ state.loop.taskQueue = state.pushed
  pending : ∀ index < state.pushed.length,
    index ∈ state.accepted ∨ ∃ thread, state.threads thread = .waking index
  accepted : ∀ index ∈ state.accepted, index < state.pushed.length
  waking : ∀ thread index, state.threads thread = .waking index → index < state.pushed.length
  woken : ∀ index ∈ state.accepted, state.started.length ≤ index →
    0 < state.loop.eventfd ∨ state.phase.looks = true

/-- A thread that was not between its push and its write hides no other. -/
theorem exists_waking_update {threads : ℕ → Caller} {thread index : ℕ}
    (hthread : threads thread ≠ .waking index) (caller : Caller)
    (hwaking : ∃ other, threads other = .waking index) :
    ∃ other, Function.update threads thread caller other = .waking index := by
  obtain ⟨other, hother⟩ := hwaking
  have hne : other ≠ thread := fun heq ↦ hthread (heq ▸ hother)
  exact ⟨other, by rw [Function.update_of_ne hne, hother]⟩

/-- Who is between a push and a write after a thread went on to do something else. -/
theorem waking_of_update {threads : ℕ → Caller} {thread : ℕ} {caller : Caller}
    (hcaller : ∀ index, caller ≠ .waking index) {other index : ℕ}
    (hwaking : Function.update threads thread caller other = .waking index) :
    threads other = .waking index := by
  by_cases heq : other = thread
  · subst heq
    rw [Function.update_self] at hwaking
    exact absurd hwaking (hcaller index)
  · rwa [Function.update_of_ne heq] at hwaking

/-- The loop goes on outside `handle_wakeup`. -/
theorem Inv.outside {state : State Task} (hinv : Inv state) (hlooks : state.phase.looks = false)
    (phase : Phase) : Inv { state with phase } := by
  refine ⟨hinv.order, hinv.pending, hinv.accepted, hinv.waking, fun index hindex hqueued ↦ .inl ?_⟩
  exact (hinv.woken index hindex hqueued).resolve_right (by simp [hlooks])

theorem Inv.effect {state next : State Task} {label : Label Task} (hinv : Inv state)
    (heffect : Effect state label next) : Inv next := by
  cases heffect with
  | @push thread task hthread hfree =>
    have hidle : ∀ index, state.threads thread ≠ .waking index := by simp [hthread]
    refine ⟨?_, fun index hindex ↦ ?_, fun index hindex ↦ ?_, fun other index hother ↦ ?_,
      hinv.woken⟩
    · change state.started ++ (state.loop.taskQueue ++ [task]) = state.pushed ++ [task]
      rw [← List.append_assoc, hinv.order]
    · simp only [List.length_append, List.length_singleton, Nat.lt_succ_iff] at hindex
      rcases Nat.lt_or_eq_of_le hindex with hold | rfl
      · exact (hinv.pending index hold).imp_right (exists_waking_update (hidle index) _)
      · exact .inr ⟨thread, Function.update_self _ _ _⟩
    · have hold := hinv.accepted index hindex
      simp only [List.length_append, List.length_singleton]
      omega
    · simp only [List.length_append, List.length_singleton]
      by_cases heq : other = thread
      · subst heq
        simp only [State.put, Function.update_self, Caller.waking.injEq] at hother
        omega
      · simp only [State.put, Function.update_of_ne heq] at hother
        have hold := hinv.waking other index hother
        omega
  | @accept thread index hthread =>
    refine ⟨hinv.order, fun other hother ↦ ?_, fun other hother ↦ ?_,
      fun _ _ hother ↦ hinv.waking _ _ (waking_of_update (by simp) hother),
      fun _ _ _ ↦ .inl state.loop.eventfd_wakeup_pos⟩
    · rcases hinv.pending other hother with haccepted | hwaking
      · exact .inl (List.mem_append_left _ haccepted)
      · by_cases heq : other = index
        · exact .inl (heq ▸ List.mem_append_right _ (List.mem_singleton_self _))
        · refine .inr (exists_waking_update ?_ _ hwaking)
          rw [hthread]
          simpa using Ne.symm heq
    · rcases List.mem_append.mp hother with hold | hnew
      · exact hinv.accepted other hold
      · rw [List.mem_singleton.mp hnew]
        exact hinv.waking thread index hthread
  | wake hthread =>
    exact ⟨hinv.order,
      fun index hindex ↦ (hinv.pending index hindex).imp_right
        (exists_waking_update (by simp [hthread]) _),
      hinv.accepted, fun _ _ hother ↦ hinv.waking _ _ (waking_of_update (by simp) hother),
      fun _ _ _ ↦ .inl state.loop.eventfd_wakeup_pos⟩
  | call hthread | assign hthread =>
    exact ⟨hinv.order,
      fun index hindex ↦ (hinv.pending index hindex).imp_right
        (exists_waking_update (by simp [hthread]) _),
      hinv.accepted, fun _ _ hother ↦ hinv.waking _ _ (waking_of_update (by simp) hother),
      hinv.woken⟩
  | goOn hphase | leave hphase | epollWait hphase | handled hphase =>
    exact hinv.outside (by rw [hphase]; rfl) _
  | read hphase | lock hphase =>
    exact ⟨hinv.order, hinv.pending, hinv.accepted, hinv.waking, fun _ _ _ ↦ .inr rfl⟩
  | runTask hphase hqueue =>
    refine ⟨?_, hinv.pending, hinv.accepted, hinv.waking, fun _ _ _ ↦ .inr ?_⟩
    · rw [← hinv.order, hqueue, List.append_assoc, List.singleton_append]
    · exact congrArg Phase.looks hphase
  | release hphase hqueue =>
    refine ⟨hinv.order, hinv.pending, hinv.accepted, hinv.waking, fun index hindex hqueued ↦ ?_⟩
    have hstarted : state.started = state.pushed := by
      rw [← hinv.order, hqueue, List.append_nil]
    have hbound := hinv.accepted index hindex
    rw [← hstarted] at hbound
    exact absurd hbound (Nat.not_lt.mpr hqueued)

theorem inv_of_reachable {state : State Task} (hreach : system.Reachable state) : Inv state := by
  refine hreach.invariant Inv ?_ fun _ _ _ hinv _ hstep ↦ hinv.effect (effect_of_step hstep)
  rintro start rfl
  exact ⟨rfl, nofun, nofun, nofun, nofun⟩

/-- In every run: while the queue is not empty, the `eventfd` can be read, or a thread is between
its push and its write, or the loop is in `handle_wakeup` before its last look at the queue; and the
tasks started are the first ones pushed, in order, and those in the queue the others. -/
theorem not_lost {state : State Task} (hreach : system.Reachable state) :
    (state.loop.taskQueue ≠ [] →
      0 < state.loop.eventfd ∨ (∃ thread index, state.threads thread = .waking index) ∨
        state.phase = .locking ∨ state.phase = .draining) ∧
      state.started ++ state.loop.taskQueue = state.pushed := by
  have hinv := inv_of_reachable hreach
  refine ⟨fun hqueue ↦ ?_, hinv.order⟩
  -- The task in front of the queue.
  have hfront : state.started.length < state.pushed.length := by
    rw [← hinv.order, List.length_append]
    exact Nat.lt_add_of_pos_right (List.length_pos_iff.mpr hqueue)
  rcases hinv.pending _ hfront with haccepted | ⟨thread, hthread⟩
  · rcases hinv.woken _ haccepted (Nat.le_refl _) with hready | hlooks
    · exact .inl hready
    · cases hphase : state.phase with
      | locking => exact .inr (.inr (.inl rfl))
      | draining => exact .inr (.inr (.inr rfl))
      | _ => simp [hphase, Phase.looks] at hlooks
  · exact .inr (.inl ⟨thread, _, hthread⟩)

/-- The loop reads the `eventfd` between the push and the write of a second task. -/
theorem not_lost_between :
    ∃ state : State ℕ, system.Reachable state ∧ state.loop.taskQueue = [8] ∧
      state.started = [7] ∧
      (0 < state.loop.eventfd ∨ (∃ thread index, state.threads thread = .waking index) ∨
        state.phase = .locking ∨ state.phase = .draining) := by
  have hreach : ∃ state : State ℕ, system.Reachable state ∧ state.loop.taskQueue = [8] ∧
      state.started = [7] :=
    ⟨_, .of_run (.initial rfl) [.test, .push 0 7, .write 0, .epollWait true, .read, .push 1 8,
      .lock, .runTask] rfl, rfl, rfl⟩
  obtain ⟨state, hstate, hqueue, hstarted⟩ := hreach
  exact ⟨state, hstate, hqueue, hstarted, (not_lost hstate).1 (by rw [hqueue]; nofun)⟩

/-! ### Stopping -/

/-- Every task accepted before `stop` was called has been started. -/
def AllStarted (state : State Task) : Prop := ∀ index ∈ state.promised, index < state.started.length

instance (state : State Task) : Decidable (AllStarted state) :=
  inferInstanceAs (Decidable (∀ index ∈ state.promised, index < state.started.length))

/-- The loop looks at the queue before it tests `stop_` again, if `epoll_wait` reports the
`eventfd`. -/
def Phase.serves : Phase → Bool
  | .waiting | .handling true | .locking | .draining => true
  | .testing | .handling false | .returned => false

/-- Once `stop_` is assigned, the promised tasks have been started or the loop will look at the
queue. -/
def Kept (state : State Task) : Prop :=
  state.stop = true → AllStarted state ∨ state.phase.serves = true

/-- While promised tasks are in the queue, `stop_` is assigned only when the loop will look there,
and once it is assigned `epoll_wait` does not leave the `eventfd` out of its batch. -/
def ServedFirst (state : State Task) : Label Task → Prop
  | .assign _ => AllStarted state ∨ state.phase.serves = true
  | .epollWait reported => state.stop = true → AllStarted state ∨ reported = true
  | _ => True

instance (state : State Task) : ∀ label, Decidable (ServedFirst state label)
  | .assign _ => inferInstanceAs (Decidable (AllStarted state ∨ state.phase.serves = true))
  | .epollWait reported =>
    inferInstanceAs (Decidable (state.stop = true → AllStarted state ∨ reported = true))
  | .push _ _ | .write _ | .call _ | .test | .read | .lock | .runTask | .release | .handled =>
    .isTrue trivial

/-- What holds of the flag and the promises in every state of every run. -/
structure StopInv (state : State Task) : Prop where
  promised : ∀ index ∈ state.promised, index ∈ state.accepted
  stopping : (∃ thread, state.threads thread = .stopping) → state.called = true
  stop : state.stop = true → state.called = true
  returned : state.phase = .returned → state.stop = true

theorem StopInv.effect {state next : State Task} {label : Label Task} (hinv : StopInv state)
    (heffect : Effect state label next) : StopInv next := by
  have hput : ∀ {thread : ℕ} {caller : Caller}, caller ≠ .stopping →
      (∃ other, Function.update state.threads thread caller other = .stopping) →
        state.called = true := by
    rintro thread caller hcaller ⟨other, hother⟩
    by_cases heq : other = thread
    · subst heq
      rw [Function.update_self] at hother
      exact absurd hother hcaller
    · rw [Function.update_of_ne heq] at hother
      exact hinv.stopping ⟨other, hother⟩
  cases heffect with
  | push | wake =>
    exact ⟨hinv.promised, hput (by nofun), hinv.stop, hinv.returned⟩
  | accept hthread =>
    exact ⟨fun index hindex ↦ List.mem_append_left _ (hinv.promised index hindex),
      hput (by nofun), hinv.stop, hinv.returned⟩
  | call hthread =>
    refine ⟨fun index hindex ↦ ?_, fun _ ↦ rfl, fun _ ↦ rfl, hinv.returned⟩
    change index ∈ (if state.called = true then state.promised else state.accepted) at hindex
    split_ifs at hindex
    · exact hinv.promised index hindex
    · exact hindex
  | assign hthread =>
    exact ⟨hinv.promised, hput (by nofun), fun _ ↦ hinv.stopping ⟨_, hthread⟩, fun _ ↦ rfl⟩
  | leave hphase hstop => exact ⟨hinv.promised, hinv.stopping, hinv.stop, fun _ ↦ hstop⟩
  | goOn | epollWait | read | lock | release | handled =>
    exact ⟨hinv.promised, hinv.stopping, hinv.stop, nofun⟩
  | runTask hphase =>
    refine ⟨hinv.promised, hinv.stopping, hinv.stop, hinv.returned⟩

/-- With the queue empty every promised task has been started. -/
theorem allStarted_of_empty {state : State Task} (hinv : Inv state) (hstop : StopInv state)
    (hqueue : state.loop.taskQueue = []) : AllStarted state := by
  intro index hindex
  have hstarted : state.started = state.pushed := by
    rw [← hinv.order, hqueue, List.append_nil]
  rw [hstarted]
  exact hinv.accepted index (hstop.promised index hindex)

/-- Outside the places from which the loop comes to look at the queue, the promised tasks have been
started. -/
theorem Kept.allStarted {state : State Task} (hkept : Kept state) (hstop : state.stop = true)
    (hserves : state.phase.serves = false) : AllStarted state :=
  (hkept hstop).resolve_right (by simp [hserves])

/-- A step keeps the promises exactly when the guard holds of it. -/
theorem kept_effect_iff {state next : State Task} {label : Label Task} (hinv : Inv state)
    (hstop : StopInv state) (hkept : Kept state) (heffect : Effect state label next) :
    Kept next ↔ ServedFirst state label := by
  cases heffect with
  | push | accept | wake => exact iff_of_true hkept trivial
  | call hthread =>
    refine iff_of_true (fun hassigned ↦ ?_) trivial
    have hcalled := hstop.stop hassigned
    simp only [AllStarted, hcalled, if_true]
    exact hkept hassigned
  | assign hthread => exact ⟨fun hnext ↦ hnext rfl, fun hguard _ ↦ hguard⟩
  | goOn => exact iff_of_true (fun _ ↦ .inr rfl) trivial
  | leave hphase hassigned =>
    exact iff_of_true (fun _ ↦ .inl (hkept.allStarted hassigned (by rw [hphase]; rfl))) trivial
  | @epollWait reported hphase =>
    cases reported
    · exact Iff.rfl
    · exact iff_of_true (fun _ ↦ .inr rfl) fun _ ↦ .inr rfl
  | read | lock => exact iff_of_true (fun _ ↦ .inr rfl) trivial
  | runTask hphase => exact iff_of_true (fun _ ↦ .inr (congrArg Phase.serves hphase)) trivial
  | release hphase hqueue =>
    have hall : AllStarted state := allStarted_of_empty hinv hstop hqueue
    exact iff_of_true (fun _ ↦ .inl hall) trivial
  | handled hphase =>
    refine iff_of_true (fun hassigned ↦ .inl ?_) trivial
    exact hkept.allStarted hassigned (by rw [hphase]; rfl)

/-- A promise that is broken stays broken. -/
theorem kept_of_effect {state next : State Task} {label : Label Task} (hstop : StopInv state)
    (heffect : Effect state label next) (hnext : Kept next) : Kept state := by
  have hserves : ∀ {phase : Phase}, state.phase = phase → phase.serves = true → Kept state :=
    fun hphase hserves _ ↦ .inr (hphase ▸ hserves)
  cases heffect with
  | push | accept | wake => exact hnext
  | call hthread =>
    intro hassigned
    have hcalled := hstop.stop hassigned
    have hserved := hnext hassigned
    simp only [AllStarted, hcalled, if_true] at hserved
    exact hserved
  | assign hthread => exact fun _ ↦ hnext rfl
  | goOn hphase hgo => exact fun hassigned ↦ by rw [hgo] at hassigned; cases hassigned
  | leave hphase hassigned => exact fun _ ↦ .inl (hnext.allStarted hassigned rfl)
  | epollWait hphase | read hphase | lock hphase | runTask hphase | release hphase =>
    exact hserves hphase rfl
  | handled hphase => exact fun hassigned ↦ .inl (hnext.allStarted hassigned rfl)

theorem stopInv_of_reachable {state : State Task} (hreach : system.Reachable state) :
    StopInv state := by
  refine hreach.invariant StopInv ?_ fun _ _ _ hinv _ hstep ↦ hinv.effect (effect_of_step hstep)
  rintro start rfl
  exact ⟨nofun, nofun, nofun, nofun⟩

/-- In a run that ends with the return of `run`: every task whose call of `addtask` returned before
`stop` was called has been executed exactly when, while such tasks were in the queue, `stop_` was
assigned only with the loop in `epoll_wait`, before the wake-up channel of its batch or in
`handle_wakeup`, and every later `epoll_wait` reported the `eventfd`. -/
theorem promises_kept_iff {labels : List (Label Task)} {final : State Task}
    (hrun : system.run .new labels = some final) (hreturned : final.phase = .returned) :
    AllStarted final ↔ system.GuardedRun ServedFirst .new labels := by
  have hkeeps : ∀ (state : State Task) label next, Inv state ∧ StopInv state →
      system.step state label = some next → Inv next ∧ StopInv next := by
    rintro state label next ⟨hinv, hstop⟩ hstep
    have heffect := effect_of_step hstep
    exact ⟨hinv.effect heffect, hstop.effect heffect⟩
  have hstart : Inv (State.new : State Task) ∧ StopInv (State.new : State Task) :=
    ⟨inv_of_reachable (.initial rfl), stopInv_of_reachable (.initial rfl)⟩
  have hkept : Kept (State.new : State Task) := nofun
  have hfinal : system.Reachable final := .of_run (.initial rfl) labels hrun
  have hassigned := (stopInv_of_reachable hfinal).returned hreturned
  have hreturn : Kept final ↔ AllStarted final :=
    ⟨fun hfinal ↦ hfinal.allStarted hassigned (by rw [hreturned]; rfl), fun hall _ ↦ .inl hall⟩
  rw [← hreturn]
  exact TransitionSystem.final_iff_guardedRun (fun state ↦ Inv state ∧ StopInv state) Kept hkeeps
    (fun _ _ _ hstate hproperty hstep ↦
      kept_effect_iff hstate.1 hstate.2 hproperty (effect_of_step hstep))
    (fun _ _ _ hstate hstep hnext ↦ kept_of_effect hstate.2 (effect_of_step hstep) hnext)
    hstart hkept hrun

/-- A task accepted while the loop is in `epoll_wait` is executed. -/
theorem promises_kept_waiting :
    let labels : List (Label ℕ) := [.test, .push 0 7, .write 0, .call 1, .assign 1,
      .epollWait true, .read, .lock, .runTask, .release, .handled, .test]
    ∃ final, system.run .new labels = some final ∧ final.promised = [0] ∧ AllStarted final := by
  intro labels
  have hrun : ∃ final, system.run .new labels = some final ∧ final.promised = [0] ∧
      final.phase = .returned := ⟨_, rfl, rfl, rfl⟩
  obtain ⟨final, hfinal, hpromised, hreturned⟩ := hrun
  exact ⟨final, hfinal, hpromised, (promises_kept_iff hfinal hreturned).mpr (by decide)⟩

/-- A task accepted while the loop handles another channel is left in the queue. -/
theorem not_promises_kept :
    ¬ ∀ state : State ℕ, system.Reachable state → state.phase = .returned → AllStarted state := by
  intro hkept
  have hreach : ∃ state : State ℕ, system.Reachable state ∧ state.phase = .returned ∧
      state.promised = [0] ∧ state.started = [] :=
    ⟨_, .of_run (.initial rfl) [.test, .epollWait false, .push 0 7, .write 0, .call 1, .assign 1,
      .handled, .test] rfl, rfl, rfl, rfl⟩
  obtain ⟨state, hstate, hreturned, hpromised, hstarted⟩ := hreach
  have hzero := hkept state hstate hreturned 0 (by rw [hpromised]; exact List.mem_singleton_self 0)
  rw [hstarted] at hzero
  cases hzero

end Steps

end Wakeup

end Reactor
