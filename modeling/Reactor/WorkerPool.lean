import Reactor.Tpl
import Reactor.Library.TransitionSystem
import Mathlib.Algebra.Ring.Nat

/-!
# Waiting and shutdown in the worker pools

`Tpl` and `Threadpool` have one worker loop: lock the mutex, `cv.wait` until the queue is not empty
or `stop` is set, return when `stop` is set and the queue is empty, otherwise take the front of the
queue, unlock and run it. `step` is this loop for any number of workers, with the calls of `enqueue`
and the destructor. `cv.wait` tests its predicate holding the mutex (`test`), and when that is false
releases the mutex and joins the wait set in a later step (`block`). A call of `enqueue` is its
push and, later, its `notify_one`; a pushing thread holds the mutex inside one step only.

The pools differ in their destructors: that of the single-reactor pool sets `stop` holding the
mutex, the others set an atomic flag and take no lock. The parameter `locked` says which.

Seen as a `Tpl`, every step is an `enqueue`, a `take`, the end of a task or nothing (`Seen`), so
tasks are taken in the order of their pushes and run once (`exactly_once`), with either destructor.
`Awake` says that `notify_all` left no worker behind. Without the lock it holds along a run exactly
when `notify_all` is not called between a test that fails and the `block` after it
(`holdsAlong_awake_iff`); with the lock it always holds (`awake_of_locked`).
-/

set_option autoImplicit false
set_option relaxedAutoImplicit false

namespace Reactor.WorkerPool

open Library
open scoped List

/-- Where a worker is in its loop. -/
inductive Worker (Task : Type*)
  /-- It is about to lock the mutex, after a task or because it was woken. -/
  | ready
  /-- The predicate was false; it holds the mutex and is about to join the wait set. -/
  | blocking
  | waiting
  /-- The predicate was true; it holds the mutex and `cv.wait` has returned. -/
  | passed
  | running (task : Task)
  | returned
  deriving DecidableEq

/-- How far the destructor has come: `stop` is set, and `notify_all` was called. -/
inductive Destructor
  | before
  | stored
  | notified
  deriving DecidableEq

structure State (Task : Type*) where
  threads : List (Worker Task)
  q : List Task
  /-- The worker that holds the mutex. -/
  mtx : Option ℕ
  stop : Bool
  /-- The number of calls of `enqueue` that have pushed and not notified yet. -/
  notifying : ℕ
  destructor : Destructor
  /-- The tasks pushed, those taken off the queue, and those that have been run, in order. -/
  enqueued : List Task
  taken : List Task
  finished : List Task

inductive Label (Task : Type*)
  | enqueue (task : Task)
  | notifyOne (woken : Option ℕ)
  | test (worker : ℕ)
  | block (worker : ℕ)
  | take (worker : ℕ)
  | return (worker : ℕ)
  | finish (worker : ℕ)
  | spurious (worker : ℕ)
  | store
  | notifyAll
  deriving DecidableEq

section Steps

variable {Task : Type*}

/-- The worker holds the mutex. -/
def Worker.holds : Worker Task → Bool
  | .blocking | .passed => true
  | _ => false

/-- The worker is in the wait set. -/
def Worker.waits : Worker Task → Bool
  | .waiting => true
  | _ => false

/-- A worker after a notification that reaches it when it waits. -/
def Worker.woken : Worker Task → Worker Task
  | .waiting => .ready
  | thread => thread

/-- The predicate of `cv.wait`. -/
def State.pred (state : State Task) : Bool := !state.q.isEmpty || state.stop

/-- A worker goes on to do something else. -/
def State.put (state : State Task) (worker : ℕ) (thread : Worker Task) : State Task :=
  { state with threads := state.threads.set worker thread }

def step (locked : Bool) (state : State Task) : Label Task → Option (State Task)
  | .enqueue task =>
    if state.mtx = none then
      some { state with
        q := state.q ++ [task]
        notifying := state.notifying + 1
        enqueued := state.enqueued ++ [task] }
    else none
  | .notifyOne none =>
    if 0 < state.notifying ∧ ∀ thread ∈ state.threads, thread.waits = false then
      some { state with notifying := state.notifying - 1 }
    else none
  | .notifyOne (some worker) =>
    match state.threads[worker]? with
    | some .waiting =>
      if 0 < state.notifying then
        some { state.put worker .ready with notifying := state.notifying - 1 }
      else none
    | _ => none
  | .test worker =>
    match state.mtx, state.threads[worker]? with
    | none, some .ready =>
      some { state.put worker (if state.pred then .passed else .blocking) with mtx := some worker }
    | _, _ => none
  | .block worker =>
    match state.threads[worker]? with
    | some .blocking => some { state.put worker .waiting with mtx := none }
    | _ => none
  | .take worker =>
    match state.threads[worker]?, state.q with
    | some .passed, task :: rest =>
      some { state.put worker (.running task) with
        q := rest, mtx := none, taken := state.taken ++ [task] }
    | _, _ => none
  | .return worker =>
    match state.threads[worker]? with
    | some .passed =>
      if state.stop && state.q.isEmpty then some { state.put worker .returned with mtx := none }
      else none
    | _ => none
  | .finish worker =>
    match state.threads[worker]? with
    | some (.running task) =>
      some { state.put worker .ready with finished := state.finished ++ [task] }
    | _ => none
  | .spurious worker =>
    match state.threads[worker]? with
    | some .waiting => some (state.put worker .ready)
    | _ => none
  | .store =>
    match state.destructor with
    | .before =>
      if locked = true ∧ state.mtx ≠ none then none
      else some { state with stop := true, destructor := .stored }
    | _ => none
  | .notifyAll =>
    match state.destructor with
    | .stored =>
      some { state with threads := state.threads.map Worker.woken, destructor := .notified }
    | _ => none

/-- The pool after its constructor: `num` workers, none of which has locked the mutex yet. -/
def State.new (num : ℕ) : State Task where
  threads := List.replicate num .ready
  q := []
  mtx := none
  stop := false
  notifying := 0
  destructor := .before
  enqueued := []
  taken := []
  finished := []

/-- The pool, for a number of workers, with or without the lock in its destructor. -/
def system (locked : Bool) (num : ℕ) : TransitionSystem (State Task) (Label Task) where
  initial := fun state ↦ state = .new num
  step := step locked

/-! ### What a step does -/

/-- The effect of a step, by the place of the worker that takes it. -/
inductive Effect (locked : Bool) (state : State Task) : Label Task → State Task → Prop
  | enqueue (task : Task) (hfree : state.mtx = none) :
      Effect locked state (.enqueue task)
        { state with
          q := state.q ++ [task]
          notifying := state.notifying + 1
          enqueued := state.enqueued ++ [task] }
  | notifyNone (hnone : ∀ thread ∈ state.threads, thread.waits = false) :
      Effect locked state (.notifyOne none) { state with notifying := state.notifying - 1 }
  | wake {label : Label Task} {worker notifying : ℕ}
      (hlabel : label = .notifyOne (some worker) ∧ 0 < state.notifying ∨
        label = .spurious worker)
      (hthread : state.threads[worker]? = some .waiting)
      (hnotifying : notifying ≤ state.notifying) :
      Effect locked state label { state.put worker .ready with notifying }
  | pass {worker : ℕ} (hthread : state.threads[worker]? = some .ready) (hfree : state.mtx = none)
      (hpred : state.pred = true) :
      Effect locked state (.test worker) { state.put worker .passed with mtx := some worker }
  | fail {worker : ℕ} (hthread : state.threads[worker]? = some .ready) (hfree : state.mtx = none)
      (hpred : state.pred = false) :
      Effect locked state (.test worker) { state.put worker .blocking with mtx := some worker }
  | block {worker : ℕ} (hthread : state.threads[worker]? = some .blocking) :
      Effect locked state (.block worker) { state.put worker .waiting with mtx := none }
  | take {worker : ℕ} {task : Task} {rest : List Task}
      (hthread : state.threads[worker]? = some .passed) (hq : state.q = task :: rest) :
      Effect locked state (.take worker)
        { state.put worker (.running task) with
          q := rest, mtx := none, taken := state.taken ++ [task] }
  | return {worker : ℕ} (hthread : state.threads[worker]? = some .passed)
      (hstop : state.stop = true) (hq : state.q = []) :
      Effect locked state (.return worker) { state.put worker .returned with mtx := none }
  | finish {worker : ℕ} {task : Task} (hthread : state.threads[worker]? = some (.running task)) :
      Effect locked state (.finish worker)
        { state.put worker .ready with finished := state.finished ++ [task] }
  | store (hdestructor : state.destructor = .before)
      (hlocked : locked = true → state.mtx = none) :
      Effect locked state .store { state with stop := true, destructor := .stored }
  | notifyAll (hdestructor : state.destructor = .stored) :
      Effect locked state .notifyAll
        { state with threads := state.threads.map Worker.woken, destructor := .notified }

theorem effect_of_step {locked : Bool} {state next : State Task} {label : Label Task}
    (hstep : step locked state label = some next) : Effect locked state label next := by
  cases label with
  | enqueue task =>
    simp only [step, Option.ite_none_right_eq_some] at hstep
    obtain ⟨hfree, hnext⟩ := hstep
    cases hnext
    exact .enqueue task hfree
  | notifyOne woken =>
    cases woken with
    | none =>
      simp only [step, Option.ite_none_right_eq_some] at hstep
      obtain ⟨⟨-, hnone⟩, hnext⟩ := hstep
      cases hnext
      exact .notifyNone hnone
    | some worker =>
      simp only [step] at hstep
      split at hstep
      · rename_i hthread
        split_ifs at hstep with hpending
        cases hstep
        exact .wake (.inl ⟨rfl, hpending⟩) hthread (Nat.sub_le _ _)
      · cases hstep
  | test worker =>
    simp only [step] at hstep
    split at hstep
    · rename_i hfree hthread
      cases hstep
      by_cases hpred : state.pred = true
      · rw [if_pos hpred]
        exact .pass hthread hfree hpred
      · rw [if_neg hpred]
        exact .fail hthread hfree (by simpa using hpred)
    · cases hstep
  | block worker =>
    simp only [step] at hstep
    split at hstep
    · rename_i hthread
      cases hstep
      exact .block hthread
    · cases hstep
  | take worker =>
    simp only [step] at hstep
    split at hstep
    · rename_i task rest hthread hq
      cases hstep
      exact .take hthread hq
    · cases hstep
  | «return» worker =>
    simp only [step] at hstep
    split at hstep
    · rename_i hthread
      split_ifs at hstep with hdone
      cases hstep
      rw [Bool.and_eq_true, List.isEmpty_iff] at hdone
      exact .return hthread hdone.1 hdone.2
    · cases hstep
  | finish worker =>
    simp only [step] at hstep
    split at hstep
    · rename_i task hthread
      cases hstep
      exact .finish hthread
    · cases hstep
  | spurious worker =>
    simp only [step] at hstep
    split at hstep
    · rename_i hthread
      cases hstep
      exact .wake (.inr rfl) hthread (Nat.le_refl _)
    · cases hstep
  | store =>
    simp only [step] at hstep
    split at hstep
    · rename_i hdestructor
      split_ifs at hstep with hheld
      cases hstep
      refine .store hdestructor fun hlocked ↦ ?_
      by_contra hmtx
      exact hheld ⟨hlocked, hmtx⟩
    · cases hstep
  | notifyAll =>
    simp only [step] at hstep
    split at hstep
    · rename_i hdestructor
      cases hstep
      exact .notifyAll hdestructor
    · cases hstep

/-- What holds of all workers, and of the place one of them goes to, holds of all after it. -/
theorem forall_mem_set {property : Worker Task → Prop} {threads : List (Worker Task)}
    {worker : ℕ} {place : Worker Task} (hthreads : ∀ thread ∈ threads, property thread)
    (hplace : property place) : ∀ thread ∈ threads.set worker place, property thread := by
  intro thread hmem
  rcases List.mem_or_eq_of_mem_set hmem with hold | rfl
  · exact hthreads thread hold
  · exact hplace

/-- A worker that goes to another place leaves the workers at this one where they are. -/
theorem mem_of_mem_set {threads : List (Worker Task)} {worker : ℕ} {place thread : Worker Task}
    (hne : place ≠ thread) (hmem : thread ∈ threads.set worker place) : thread ∈ threads := by
  rcases List.mem_or_eq_of_mem_set hmem with hold | hnew
  · exact hold
  · exact absurd hnew.symm hne

/-! ### The mutex -/

/-- The mutex is held by the one worker whose place in the loop holds it, if any. -/
def Held (threads : List (Worker Task)) (mtx : Option ℕ) : Prop :=
  ∀ worker, threads[worker]?.any Worker.holds = true ↔ mtx = some worker

/-- Who is where after a worker went on. -/
theorem any_getElem?_set {threads : List (Worker Task)} {worker : ℕ} {thread : Worker Task}
    (hthread : threads[worker]? = some thread) (other : Worker Task) (index : ℕ) :
    (threads.set worker other)[index]?.any Worker.holds =
      if worker = index then other.holds else threads[index]?.any Worker.holds := by
  obtain ⟨hworker, -⟩ := List.getElem?_eq_some_iff.mp hthread
  rw [List.getElem?_set]
  split_ifs <;> rfl

/-- While the mutex is free no worker holds it. -/
theorem Held.holds_eq_false {threads : List (Worker Task)} (hheld : Held threads none) :
    ∀ thread ∈ threads, thread.holds = false := by
  intro thread hthread
  obtain ⟨worker, hworker⟩ := List.mem_iff_getElem?.mp hthread
  have hnone := hheld worker
  rw [hworker] at hnone
  simpa using hnone

/-- The worker that holds the mutex is the only one. -/
theorem Held.eq_some {threads : List (Worker Task)} {mtx : Option ℕ} (hheld : Held threads mtx)
    {worker : ℕ} {thread : Worker Task} (hthread : threads[worker]? = some thread)
    (hholds : thread.holds = true) : mtx = some worker :=
  (hheld worker).mp (by rw [hthread]; exact hholds)

/-- A worker locks the mutex. -/
theorem Held.acquire {threads : List (Worker Task)} (hheld : Held threads none) {worker : ℕ}
    {thread other : Worker Task} (hthread : threads[worker]? = some thread)
    (hother : other.holds = true) : Held (threads.set worker other) (some worker) := by
  intro index
  rw [any_getElem?_set hthread]
  split_ifs with heq
  · simp [hother, heq]
  · simp [hheld index, heq]

/-- The worker that holds the mutex unlocks it. -/
theorem Held.release {threads : List (Worker Task)} {mtx : Option ℕ} (hheld : Held threads mtx)
    {worker : ℕ} {thread other : Worker Task} (hthread : threads[worker]? = some thread)
    (hholds : thread.holds = true) (hother : other.holds = false) :
    Held (threads.set worker other) none := by
  intro index
  rw [any_getElem?_set hthread]
  split_ifs with heq
  · simp [hother]
  · simp [hheld index, hheld.eq_some hthread hholds, heq]

/-- A worker goes on without the mutex. -/
theorem Held.keep {threads : List (Worker Task)} {mtx : Option ℕ} (hheld : Held threads mtx)
    {worker : ℕ} {thread other : Worker Task} (hthread : threads[worker]? = some thread)
    (hholds : thread.holds = false) (hother : other.holds = false) :
    Held (threads.set worker other) mtx := by
  intro index
  rw [any_getElem?_set hthread]
  split_ifs with heq
  · subst heq
    rw [← hheld worker, hthread, hother]
    simp [hholds]
  · exact hheld index

@[simp] theorem holds_woken (thread : Worker Task) : thread.woken.holds = thread.holds := by
  cases thread <;> rfl

/-- Waking the workers leaves the mutex as it is. -/
theorem Held.woken {threads : List (Worker Task)} {mtx : Option ℕ} (hheld : Held threads mtx) :
    Held (threads.map Worker.woken) mtx := by
  intro index
  rw [← hheld index, List.getElem?_map]
  cases threads[index]? <;> simp

/-- What holds in every state of every run, for a number of workers. -/
structure Inv (num : ℕ) (state : State Task) : Prop where
  size : state.threads.length = num
  held : Held state.threads state.mtx
  /-- A worker past `cv.wait` finds a task or the flag. -/
  passed : .passed ∈ state.threads → state.pred = true
  stopped : state.stop = true ↔ state.destructor ≠ .before

/-- A worker that did not wait for the mutex finds in the queue what it found under the lock. -/
theorem Inv.effect {locked : Bool} {num : ℕ} {state next : State Task} {label : Label Task}
    (hinv : Inv num state) (heffect : Effect locked state label next) : Inv num next := by
  -- The flag and the queue stay, so the predicate does; a worker put at another place has not
  -- passed.
  have hput : ∀ {worker : ℕ} {thread : Worker Task}, thread ≠ .passed →
      .passed ∈ state.threads.set worker thread → state.pred = true :=
    fun hne hmem ↦ hinv.passed (mem_of_mem_set hne hmem)
  have hsize : ∀ (worker : ℕ) (thread : Worker Task),
      (state.threads.set worker thread).length = num :=
    fun worker thread ↦ by rw [List.length_set, hinv.size]
  cases heffect with
  | enqueue task hfree =>
    refine ⟨hinv.size, hinv.held, fun _ ↦ ?_, hinv.stopped⟩
    simp [State.pred]
  | notifyNone hnone => exact ⟨hinv.size, hinv.held, hinv.passed, hinv.stopped⟩
  | wake hlabel hthread hnotifying =>
    exact ⟨hsize _ _, hinv.held.keep hthread rfl rfl, hput nofun, hinv.stopped⟩
  | pass hthread hfree hpred =>
    exact ⟨hsize _ _, (hfree ▸ hinv.held).acquire hthread rfl, fun _ ↦ hpred, hinv.stopped⟩
  | fail hthread hfree hpred =>
    exact ⟨hsize _ _, (hfree ▸ hinv.held).acquire hthread rfl, hput nofun, hinv.stopped⟩
  | block hthread =>
    exact ⟨hsize _ _, hinv.held.release hthread rfl rfl, hput nofun, hinv.stopped⟩
  | @take worker task rest hthread hq =>
    have hheld : Held (state.threads.set worker (.running task)) none :=
      hinv.held.release hthread rfl rfl
    refine ⟨hsize _ _, hheld, fun hmem ↦ ?_, hinv.stopped⟩
    cases hheld.holds_eq_false _ hmem
  | «return» hthread hstop hq =>
    exact ⟨hsize _ _, hinv.held.release hthread rfl rfl, hput nofun, hinv.stopped⟩
  | finish hthread =>
    exact ⟨hsize _ _, hinv.held.keep hthread rfl rfl, hput nofun, hinv.stopped⟩
  | store hdestructor hlocked =>
    refine ⟨hinv.size, hinv.held, fun _ ↦ ?_, by simp⟩
    simp [State.pred]
  | notifyAll hdestructor =>
    refine ⟨by rw [List.length_map, hinv.size], hinv.held.woken, fun hmem ↦ ?_, ?_⟩
    · obtain ⟨thread, hthread, hpassed⟩ := List.mem_map.mp hmem
      cases thread <;> cases hpassed
      exact hinv.passed hthread
    · simpa [hdestructor] using hinv.stopped

/-! ### The pool seen as a `Tpl` -/

/-- A worker, when only the tasks matter. -/
def Worker.work : Worker Task → WorkThread Task
  | .running task => .running task
  | _ => .waiting

/-- The pool, when only the tasks matter. -/
def State.tpl (state : State Task) : Tpl Task := ⟨state.threads.map Worker.work, state.q⟩

/-- What is seen of a step when only the tasks matter. -/
inductive Seen (state next : State Task) : Prop
  | nothing (htpl : next.tpl = state.tpl) (henqueued : next.enqueued = state.enqueued)
      (htaken : next.taken = state.taken) (hfinished : next.finished = state.finished)
  | enqueue (task : Task) (htpl : next.tpl = state.tpl.enqueue task)
      (henqueued : next.enqueued = state.enqueued ++ [task])
      (htaken : next.taken = state.taken) (hfinished : next.finished = state.finished)
  | take (worker : ℕ) (task : Task) (htpl : state.tpl.take worker = some next.tpl)
      (hq : state.q = task :: next.q) (henqueued : next.enqueued = state.enqueued)
      (htaken : next.taken = state.taken ++ [task]) (hfinished : next.finished = state.finished)
  | finish (worker : ℕ) (task : Task)
      (hthread : state.tpl.threads[worker]? = some (.running task))
      (htpl : next.tpl = state.tpl.put worker .waiting)
      (henqueued : next.enqueued = state.enqueued) (htaken : next.taken = state.taken)
      (hfinished : next.finished = state.finished ++ [task])

@[simp] theorem work_woken (thread : Worker Task) : thread.woken.work = thread.work := by
  cases thread <;> rfl

/-- Where a worker is, when only the tasks matter. -/
theorem getElem?_tpl {state : State Task} {worker : ℕ} {thread : Worker Task}
    (hthread : state.threads[worker]? = some thread) :
    state.tpl.threads[worker]? = some thread.work := by
  rw [State.tpl, List.getElem?_map, hthread]
  rfl

/-- A worker that neither takes nor ends a task is not seen to move. -/
theorem map_work_set {state : State Task} {worker : ℕ} {thread other : Worker Task}
    (hthread : state.threads[worker]? = some thread) (hwork : other.work = thread.work) :
    (state.threads.set worker other).map Worker.work = state.threads.map Worker.work := by
  have hmap : (state.threads.map Worker.work)[worker]? = some other.work := by
    rw [List.getElem?_map, hthread, hwork]
    rfl
  obtain ⟨hworker, hget⟩ := List.getElem?_eq_some_iff.mp hmap
  rw [List.map_set, ← hget]
  exact List.set_getElem_self hworker

/-- A step is an `enqueue`, a `take`, the end of a task, or nothing. -/
theorem seen_of_effect {locked : Bool} {state next : State Task} {label : Label Task}
    (heffect : Effect locked state label next) : Seen state next := by
  cases heffect with
  | enqueue task hfree => exact .enqueue task rfl rfl rfl rfl
  | notifyNone hnone => exact .nothing rfl rfl rfl rfl
  | wake hlabel hthread | pass hthread | fail hthread | block hthread | «return» hthread =>
    refine .nothing ?_ rfl rfl rfl
    exact congrArg (Tpl.mk · state.q) (map_work_set hthread rfl)
  | @take worker task rest hthread hq =>
    refine .take worker task ?_ hq rfl rfl rfl
    have hqueue : state.tpl.q = task :: rest := hq
    have hset : (state.threads.map Worker.work).set worker (.running task) =
        (state.threads.set worker (.running task)).map Worker.work := by
      rw [List.map_set]
      rfl
    rw [Tpl.take, getElem?_tpl hthread, hqueue]
    exact congrArg (fun threads ↦ some (Tpl.mk threads rest)) hset
  | @finish worker task hthread =>
    refine .finish worker task (getElem?_tpl hthread) ?_ rfl rfl rfl
    exact congrArg (Tpl.mk · state.q) List.map_set
  | store => exact .nothing rfl rfl rfl rfl
  | notifyAll =>
    refine .nothing ?_ rfl rfl rfl
    refine congrArg (Tpl.mk · state.q) ?_
    rw [List.map_map]
    exact List.map_congr_left fun thread _ ↦ work_woken thread

/-- Tasks leave the queue in the order of their pushes, and the tasks taken are those being run and
those that have been run. -/
structure Accounted (state : State Task) : Prop where
  fifo : state.taken ++ state.q = state.enqueued
  once : state.finished ++ state.tpl.running ~ state.taken

theorem Accounted.seen {state next : State Task} (haccounted : Accounted state)
    (hseen : Seen state next) : Accounted next := by
  obtain ⟨hfifo, honce⟩ := haccounted
  cases hseen with
  | nothing htpl henqueued htaken hfinished =>
    have hq : next.q = state.q := congrArg Tpl.q htpl
    exact ⟨by rw [htaken, hq, henqueued, hfifo], by rw [hfinished, htpl, htaken]; exact honce⟩
  | enqueue task htpl henqueued htaken hfinished =>
    have hq : next.q = state.q ++ [task] := congrArg Tpl.q htpl
    refine ⟨by rw [htaken, hq, henqueued, ← hfifo, List.append_assoc], ?_⟩
    rw [hfinished, htpl, htaken, Tpl.running_enqueue]
    exact honce
  | take worker task htpl hq henqueued htaken hfinished =>
    refine ⟨by rw [htaken, henqueued, ← hfifo, hq, List.append_assoc, List.singleton_append], ?_⟩
    obtain ⟨front, rest, hthread, hfront, hnext⟩ := Tpl.take_eq_some htpl
    obtain ⟨rfl, -⟩ := List.cons_eq_cons.mp (hfront.symm.trans hq)
    have hrunning : next.tpl.running ~ front :: state.tpl.running := by
      rw [hnext]
      exact Tpl.running_put_running hthread front
    rw [hfinished, htaken]
    calc state.finished ++ next.tpl.running
        ~ state.finished ++ front :: state.tpl.running := hrunning.append_left _
      _ ~ front :: (state.finished ++ state.tpl.running) := List.perm_middle
      _ ~ front :: state.taken := honce.cons front
      _ ~ state.taken ++ [front] := (List.perm_append_singleton front _).symm
  | finish worker task hthread htpl henqueued htaken hfinished =>
    have hq : next.q = state.q := congrArg Tpl.q htpl
    refine ⟨by rw [htaken, hq, henqueued, hfifo], ?_⟩
    have hrunning : state.tpl.running ~ task :: next.tpl.running := by
      rw [htpl]
      exact Tpl.running_put_done hthread rfl
    rw [hfinished, htaken, List.append_assoc]
    exact (hrunning.append_left _).symm.trans honce

/-! ### Exactly once -/

/-- Tasks are pushed only before the destructor starts. -/
def PushesFirst (state : State Task) : Label Task → Prop
  | .enqueue _ => state.destructor = .before
  | _ => True

instance (state : State Task) : ∀ label, Decidable (PushesFirst state label)
  | .enqueue _ => inferInstanceAs (Decidable (state.destructor = .before))
  | .notifyOne _ | .test _ | .block _ | .take _ | .return _ | .finish _ | .spurious _ | .store
  | .notifyAll => .isTrue trivial

/-- A worker that has returned left an empty queue, after the destructor started. -/
def LeftEmpty (state : State Task) : Prop :=
  .returned ∈ state.threads → state.stop = true ∧ state.q = []

/-- When tasks are pushed first, what a returned worker has seen stays true. -/
theorem LeftEmpty.effect {locked : Bool} {num : ℕ} {state next : State Task} {label : Label Task}
    (hinv : Inv num state) (hleft : LeftEmpty state) (hfirst : PushesFirst state label)
    (heffect : Effect locked state label next) : LeftEmpty next := by
  have hput : ∀ {worker : ℕ} {thread : Worker Task}, thread ≠ .returned →
      .returned ∈ state.threads.set worker thread → state.stop = true ∧ state.q = [] :=
    fun hne hmem ↦ hleft (mem_of_mem_set hne hmem)
  cases heffect with
  | enqueue task hfree =>
    intro hmem
    exact absurd hfirst (hinv.stopped.mp (hleft hmem).1)
  | notifyNone hnone => exact hleft
  | wake hlabel hthread hnotifying => exact hput nofun
  | pass | fail | block | finish => exact hput nofun
  | @take worker task rest hthread hq =>
    intro (hmem : .returned ∈ state.threads.set worker (.running task))
    have hempty := (hput (by nofun) hmem).2
    rw [hq] at hempty
    cases hempty
  | «return» hthread hstop hq => exact fun _ ↦ ⟨hstop, hq⟩
  | store hdestructor hlocked => exact fun hmem ↦ ⟨rfl, (hleft hmem).2⟩
  | notifyAll hdestructor =>
    intro hmem
    obtain ⟨thread, hthread, hreturned⟩ := List.mem_map.mp hmem
    cases thread <;> cases hreturned
    exact hleft hthread

section Runs

variable {locked : Bool} {num : ℕ} {state : State Task}

theorem inv_new (num : ℕ) : Inv num (State.new num : State Task) where
  size := List.length_replicate
  held := by
    intro worker
    simp only [State.new, List.getElem?_replicate]
    split_ifs <;> simp [Worker.holds]
  passed := fun hmem ↦ by cases List.eq_of_mem_replicate hmem
  stopped := by simp [State.new]

theorem accounted_new (num : ℕ) : Accounted (State.new num : State Task) where
  fifo := rfl
  once := by
    have htpl : (State.new num : State Task).tpl = Tpl.new num := by
      rw [State.tpl, State.new, List.map_replicate]
      rfl
    rw [htpl, Tpl.running_new]
    exact List.Perm.refl _

theorem inv_of_reachable (hreach : (system locked num).Reachable state) : Inv num state := by
  refine hreach.invariant (Inv num) ?_ fun _ _ _ hinv _ hstep ↦ hinv.effect (effect_of_step hstep)
  rintro start rfl
  exact inv_new num

theorem accounted_of_reachable (hreach : (system locked num).Reachable state) :
    Accounted state := by
  refine hreach.invariant Accounted ?_
    fun _ _ _ haccounted _ hstep ↦ haccounted.seen (seen_of_effect (effect_of_step hstep))
  rintro start rfl
  exact accounted_new num

theorem leftEmpty_of_reachesUnder (hreach : (system locked num).ReachesUnder PushesFirst state) :
    LeftEmpty state := by
  have hboth : Inv num state ∧ LeftEmpty state := by
    refine hreach.invariant (fun reached ↦ Inv num reached ∧ LeftEmpty reached) ?_ ?_
    · rintro start rfl
      exact ⟨inv_new num, fun hmem ↦ by cases List.eq_of_mem_replicate hmem⟩
    · rintro before label after ⟨hinv, hleft⟩ hfirst hstep
      have heffect := effect_of_step hstep
      exact ⟨hinv.effect heffect, hleft.effect hinv hfirst heffect⟩
  exact hboth.2

/-- Once every worker has returned no task is being run. -/
theorem running_of_returned (hreturned : ∀ thread ∈ state.threads, thread = .returned) :
    state.tpl.running = [] := by
  rw [Tpl.running, State.tpl, List.filterMap_map, List.filterMap_eq_nil_iff]
  intro thread hthread
  rw [hreturned thread hthread]
  rfl

/-- With at least one worker, in every run in which tasks are pushed before the destructor starts:
tasks are taken in the order of their pushes, what is being run and has been run are the tasks
taken, each once; a worker past `cv.wait` that does not return finds a task; a worker has returned
only when the queue is empty; and when all have returned exactly the tasks pushed have been run. -/
theorem exactly_once (hnum : 1 ≤ num)
    (hreach : (system locked num).ReachesUnder PushesFirst state) :
    state.taken ++ state.q = state.enqueued ∧
      state.finished ++ state.tpl.running ~ state.taken ∧
      (.passed ∈ state.threads → (state.stop && state.q.isEmpty) = false → state.q ≠ []) ∧
      (.returned ∈ state.threads → state.q = []) ∧
      ((∀ thread ∈ state.threads, thread = .returned) → state.finished ~ state.enqueued) := by
  have hinv := inv_of_reachable hreach.reachable
  obtain ⟨hfifo, honce⟩ := accounted_of_reachable hreach.reachable
  have hleft := leftEmpty_of_reachesUnder hreach
  refine ⟨hfifo, honce, fun hpassed hgoes hempty ↦ ?_, fun hmem ↦ (hleft hmem).2,
    fun hreturned ↦ ?_⟩
  · have hpred := hinv.passed hpassed
    simp only [State.pred, hempty, List.isEmpty_nil, Bool.not_true, Bool.false_or] at hpred
    simp [hpred, hempty] at hgoes
  · have hlength : 0 < state.threads.length := by rw [hinv.size]; exact hnum
    obtain ⟨thread, hthread⟩ := List.exists_mem_of_length_pos hlength
    have hempty := (hleft (hreturned thread hthread ▸ hthread)).2
    rw [running_of_returned hreturned, List.append_nil] at honce
    rw [hempty, List.append_nil] at hfifo
    rwa [hfifo] at honce

/-- Two workers run two tasks, and return. -/
theorem exactly_once_two :
    ∃ state : State ℕ, (system false 2).Reachable state ∧ state.enqueued = [7, 8] ∧
      (∀ thread ∈ state.threads, thread = .returned) ∧ state.finished ~ state.enqueued := by
  have hreach : ∃ state : State ℕ, (system false 2).ReachesUnder PushesFirst state ∧
      state.enqueued = [7, 8] ∧ ∀ thread ∈ state.threads, thread = .returned := by
    refine ⟨_, .of_run (.initial rfl) [.test 0, .block 0, .enqueue 7, .notifyOne (some 0),
      .enqueue 8, .test 1, .take 1, .notifyOne none, .test 0, .take 0, .finish 0, .finish 1,
      .test 0, .store, .block 0, .notifyAll, .test 0, .return 0, .test 1, .return 1] ?_ rfl, rfl,
      ?_⟩
    · decide
    · decide
  obtain ⟨state, hstate, henqueued, hreturned⟩ := hreach
  exact ⟨state, hstate.reachable, henqueued, hreturned,
    (exactly_once (by decide) hstate).2.2.2.2 hreturned⟩

end Runs

/-! ### Nobody is left behind -/

/-- After `notify_all` no worker is in the wait set or about to join it. -/
def Awake (state : State Task) : Prop :=
  state.destructor = .notified → ∀ thread ∈ state.threads, thread ≠ .blocking ∧ thread ≠ .waiting

/-- `notify_all` was called, a worker is in the wait set or about to join it, and no `notify_one` is
to come. -/
def Stranded (state : State Task) : Prop :=
  state.destructor = .notified ∧ state.notifying = 0 ∧
    ∃ thread ∈ state.threads, thread = .blocking ∨ thread = .waiting

/-- `notify_all` is called while no worker is between a test that failed and the wait set. -/
def NotifiesUnblocked (state : State Task) : Label Task → Prop
  | .notifyAll => ∀ thread ∈ state.threads, thread ≠ .blocking
  | _ => True

instance [DecidableEq Task] (state : State Task) :
    ∀ label, Decidable (NotifiesUnblocked state label)
  | .notifyAll => inferInstanceAs (Decidable (∀ thread ∈ state.threads, thread ≠ .blocking))
  | .enqueue _ | .notifyOne _ | .test _ | .block _ | .take _ | .return _ | .finish _ | .spurious _
  | .store => .isTrue trivial

/-- With no `notify_one` to come, a worker is stranded exactly when one was left behind. -/
theorem not_stranded_iff {state : State Task} (hnotifying : state.notifying = 0) :
    ¬ Stranded state ↔ Awake state := by
  simp only [Stranded, Awake, hnotifying, true_and, not_and, not_exists, not_or]

theorem woken_of_ne_blocking {thread : Worker Task} (hthread : thread ≠ .blocking) :
    thread.woken ≠ .blocking ∧ thread.woken ≠ .waiting := by
  cases thread with
  | blocking => exact absurd rfl hthread
  | _ => simp [Worker.woken]

/-- A step leaves no worker behind exactly when it is not a `notify_all` that comes too early. -/
theorem awake_effect_iff {locked : Bool} {num : ℕ} {state next : State Task} {label : Label Task}
    (hinv : Inv num state) (hawake : Awake state) (heffect : Effect locked state label next) :
    Awake next ↔ NotifiesUnblocked state label := by
  have hput : ∀ {worker : ℕ} {thread : Worker Task}, thread ≠ .blocking ∧ thread ≠ .waiting →
      state.destructor = .notified →
      ∀ other ∈ state.threads.set worker thread, other ≠ .blocking ∧ other ≠ .waiting :=
    fun hthread hnotified ↦ forall_mem_set (hawake hnotified) hthread
  cases heffect with
  | enqueue | notifyNone => exact iff_of_true hawake trivial
  | wake hlabel hthread hnotifying =>
    refine iff_of_true (hput (by simp)) ?_
    rcases hlabel with ⟨rfl, -⟩ | rfl <;> trivial
  | pass | take | «return» | finish => exact iff_of_true (hput (by simp)) trivial
  | fail hthread hfree hpred =>
    refine iff_of_true (fun hnotified ↦ ?_) trivial
    have hstop : state.stop = true := hinv.stopped.mpr (by
      rw [show state.destructor = .notified from hnotified]
      decide)
    simp [State.pred, hstop] at hpred
  | block hthread =>
    refine iff_of_true (fun hnotified ↦ ?_) trivial
    exact absurd rfl (hawake hnotified _ (List.mem_of_getElem? hthread)).1
  | store => exact iff_of_true nofun trivial
  | notifyAll =>
    constructor
    · rintro hnext thread hthread rfl
      exact (hnext rfl .blocking (List.mem_map.mpr ⟨.blocking, hthread, rfl⟩)).1 rfl
    · rintro hunblocked - thread hmem
      obtain ⟨other, hother, rfl⟩ := List.mem_map.mp hmem
      exact woken_of_ne_blocking (hunblocked other hother)

/-! ### The join completes -/

/-- The step is one of the worker loop, outside its tasks. -/
def Label.ofLoop : Label Task → Bool
  | .test _ | .block _ | .take _ | .return _ => true
  | _ => false

/-- The step is one of a worker: of its loop, or the end of its task. -/
def Label.ofWorker (label : Label Task) : Prop :=
  label.ofLoop = true ∨ ∃ worker, label = .finish worker

/-- How many steps a worker has before it at most, but for the tasks it takes. -/
def Worker.steps : Worker Task → ℕ
  | .running _ => 3
  | .ready => 2
  | .passed => 1
  | .blocking | .waiting | .returned => 0

/-- How many steps the workers have before them at most, while no more tasks are pushed. -/
def State.steps (state : State Task) : ℕ :=
  (state.threads.map Worker.steps).sum + 3 * state.q.length

theorem sum_steps_set {threads : List (Worker Task)} {worker : ℕ} {thread : Worker Task}
    (hthread : threads[worker]? = some thread) (other : Worker Task) :
    ((threads.set worker other).map Worker.steps).sum + thread.steps =
      (threads.map Worker.steps).sum + other.steps := by
  induction threads generalizing worker with
  | nil => cases hthread
  | cons head rest ih =>
    cases worker with
    | zero =>
      obtain rfl : head = thread := by simpa using hthread
      simp only [List.set_cons_zero, List.map_cons, List.sum_cons]
      omega
    | succ worker =>
      have hbelow : rest[worker]? = some thread := by simpa using hthread
      have hrest := ih hbelow
      simp only [List.set_cons_succ, List.map_cons, List.sum_cons]
      omega

/-- Once `stop` is set, a worker past `cv.wait` returns or takes a task. -/
theorem exists_step_of_passed {locked : Bool} {state : State Task} (hstop : state.stop = true)
    {worker : ℕ} (hthread : state.threads[worker]? = some .passed) :
    ∃ label next, label.ofLoop = true ∧ step locked state label = some next ∧
      next.steps < state.steps := by
  cases hq : state.q with
  | nil =>
    refine ⟨.return worker, { state.put worker .returned with mtx := none }, rfl, ?_, ?_⟩
    · simp [step, hthread, hstop, hq]
    · have hsum := sum_steps_set hthread .returned
      simp only [State.steps, State.put, Worker.steps] at hsum ⊢
      omega
  | cons task rest =>
    refine ⟨.take worker, { state.put worker (.running task) with
      q := rest, mtx := none, taken := state.taken ++ [task] }, rfl, ?_, ?_⟩
    · simp [step, hthread, hq]
    · have hsum := sum_steps_set hthread (.running task)
      simp only [State.steps, State.put, Worker.steps, hq, List.length_cons] at hsum ⊢
      omega

/-- Once `stop` is set, and while no worker waits or is about to, a worker that has neither returned
nor a task to run leaves the loop of some worker a step. -/
theorem exists_loop_step {locked : Bool} {num : ℕ} {state : State Task} (hinv : Inv num state)
    (hstop : state.stop = true)
    (hawake : ∀ thread ∈ state.threads, thread ≠ .blocking ∧ thread ≠ .waiting)
    {thread : Worker Task} (hmem : thread ∈ state.threads) (hreturned : thread ≠ .returned)
    (hidle : thread.work.task? = none) :
    ∃ label next, label.ofLoop = true ∧ step locked state label = some next ∧
      next.steps < state.steps := by
  obtain ⟨worker, hthread⟩ := List.mem_iff_getElem?.mp hmem
  cases thread with
  | ready =>
    cases hmtx : state.mtx with
    | none =>
      refine ⟨.test worker, { state.put worker .passed with mtx := some worker }, rfl, ?_, ?_⟩
      · simp [step, hmtx, hthread, State.pred, hstop]
      · have hsum := sum_steps_set hthread .passed
        simp only [State.steps, State.put, Worker.steps] at hsum ⊢
        omega
    | some holder =>
      -- The holder of the mutex is past `cv.wait`.
      have hholds := (hinv.held holder).mpr hmtx
      cases hget : state.threads[holder]? with
      | none => simp [hget] at hholds
      | some other =>
        cases other with
        | passed => exact exists_step_of_passed hstop hget
        | blocking => exact absurd rfl (hawake _ (List.mem_of_getElem? hget)).1
        | _ => simp [hget, Worker.holds] at hholds
  | passed => exact exists_step_of_passed hstop hthread
  | blocking => exact absurd rfl (hawake _ hmem).1
  | waiting => exact absurd rfl (hawake _ hmem).2
  | running task => cases hidle
  | returned => exact absurd rfl hreturned

/-- The pool after a `notify_all` that left no worker behind. -/
structure Closing (num : ℕ) (state : State Task) : Prop where
  inv : Inv num state
  notified : state.destructor = .notified
  awake : Awake state

theorem Closing.stop {num : ℕ} {state : State Task} (hclosing : Closing num state) :
    state.stop = true :=
  hclosing.inv.stopped.mpr (by rw [hclosing.notified]; decide)

/-- Nothing but `notify_all` can leave a worker behind, and it is called once. -/
theorem Closing.step {locked : Bool} {num : ℕ} {state next : State Task} {label : Label Task}
    (hclosing : Closing num state) (hstep : step locked state label = some next) :
    Closing num next := by
  have heffect := effect_of_step hstep
  have hnotified := hclosing.notified
  have hguard : NotifiesUnblocked state label := by
    cases heffect with
    | notifyAll hdestructor =>
      rw [hnotified] at hdestructor
      cases hdestructor
    | wake hlabel => rcases hlabel with ⟨rfl, -⟩ | rfl <;> trivial
    | _ => trivial
  refine ⟨hclosing.inv.effect heffect, ?_,
    (awake_effect_iff hclosing.inv hclosing.awake heffect).mpr hguard⟩
  cases heffect with
  | store hdestructor =>
    rw [hnotified] at hdestructor
    cases hdestructor
  | notifyAll => rfl
  | _ => exact hnotified

/-- A step of the loop of some worker is enabled while a worker has neither returned nor a task to
run. -/
theorem Closing.exists_loop_step {locked : Bool} {num : ℕ} {state : State Task}
    (hclosing : Closing num state) (hunreturned : ∃ thread ∈ state.threads, thread ≠ .returned)
    (hrunning : state.tpl.running = []) :
    ∃ label next, label.ofLoop = true ∧ WorkerPool.step locked state label = some next := by
  obtain ⟨thread, hmem, hreturned⟩ := hunreturned
  have hidle : thread.work.task? = none := by
    rw [Tpl.running, State.tpl, List.filterMap_map, List.filterMap_eq_nil_iff] at hrunning
    exact hrunning thread hmem
  obtain ⟨label, next, hlabel, hstep, -⟩ := WorkerPool.exists_loop_step hclosing.inv hclosing.stop
    (hclosing.awake hclosing.notified) hmem hreturned hidle
  exact ⟨label, next, hlabel, hstep⟩

/-- The workers on their own, their tasks returning, come to a state in which all have returned. -/
theorem Closing.completes {locked : Bool} {num : ℕ} {state : State Task}
    (hclosing : Closing num state) :
    ∃ labels final, (∀ label ∈ labels, label.ofWorker) ∧
      (system locked num).run state labels = some final ∧
      ∀ thread ∈ final.threads, thread = .returned := by
  refine TransitionSystem.exists_run_of_progress State.steps (Closing num) _ ?_ hclosing
  intro current hcurrent hgoal
  obtain ⟨thread, hmem, hreturned⟩ : ∃ thread ∈ current.threads, thread ≠ .returned := by
    by_contra hall
    exact hgoal fun thread hmem ↦ not_not.mp fun hne ↦ hall ⟨thread, hmem, hne⟩
  have hstep : ∃ label next, label.ofWorker ∧ WorkerPool.step locked current label = some next ∧
      next.steps < current.steps := by
    cases hidle : thread.work.task? with
    | none =>
      obtain ⟨label, next, hlabel, hrest⟩ := WorkerPool.exists_loop_step hcurrent.inv
        hcurrent.stop (hcurrent.awake hcurrent.notified) hmem hreturned hidle
      exact ⟨label, next, .inl hlabel, hrest⟩
    | some task =>
      obtain ⟨worker, hthread⟩ := List.mem_iff_getElem?.mp hmem
      cases thread with
      | running other =>
        refine ⟨.finish worker, { current.put worker .ready with
          finished := current.finished ++ [other] }, .inr ⟨worker, rfl⟩, ?_, ?_⟩
        · simp [WorkerPool.step, hthread]
        · have hsum := sum_steps_set hthread .ready
          simp only [State.steps, State.put, Worker.steps] at hsum ⊢
          omega
      | _ => cases hidle
  obtain ⟨label, next, hlabel, hnext, hlower⟩ := hstep
  exact ⟨label, next, hlabel, hnext, hcurrent.step hnext, hlower⟩

section Runs

variable {locked : Bool} {num : ℕ} {state : State Task}

/-- Before `notify_all` no worker is left behind. -/
theorem awake_of_before (hbefore : state.destructor = .before) : Awake state := by
  intro hnotified
  rw [hbefore] at hnotified
  cases hnotified

theorem holdsAlong_awake_iff {start final : State Task} (hinv : Inv num start)
    (hawake : Awake start) {labels : List (Label Task)}
    (hrun : (system locked num).run start labels = some final) :
    (system locked num).HoldsAlong Awake start labels ↔
      (system locked num).GuardedRun NotifiesUnblocked start labels :=
  TransitionSystem.holdsAlong_iff_guardedRun (Inv num) Awake
    (fun _ _ _ hstate hstep ↦ hstate.effect (effect_of_step hstep))
    (fun _ _ _ hstate hproperty hstep ↦ awake_effect_iff hstate hproperty (effect_of_step hstep))
    labels start final hinv hawake hrun

/-- A step other than an `enqueue` leaves no `notify_one` to come when none was. -/
theorem notifying_of_effect {next : State Task} {label : Label Task}
    (hnotifying : state.notifying = 0) (hlabel : ∀ task, label ≠ .enqueue task)
    (hstep : step locked state label = some next) : next.notifying = 0 := by
  have heffect := effect_of_step hstep
  cases heffect with
  | enqueue task => exact absurd rfl (hlabel task)
  | notifyNone => exact Nat.sub_eq_zero_of_le (by omega)
  | @wake _ worker notifying hlabel hthread hle => exact Nat.le_zero.mp (hnotifying ▸ hle)
  | _ => exact hnotifying

/-- A worker in the wait set after `notify_all`, with no `notify_one` to come, stays there in every
run without an `enqueue` and a spurious wake-up of its own. -/
theorem waiting_of_run {final : State Task} {worker : ℕ}
    (hdestructor : state.destructor = .notified) (hnotifying : state.notifying = 0)
    (hthread : state.threads[worker]? = some .waiting) {labels : List (Label Task)}
    (hlabels : ∀ label ∈ labels, label ≠ .spurious worker ∧ ∀ task, label ≠ .enqueue task)
    (hrun : (system locked num).run state labels = some final) :
    final.threads[worker]? = some .waiting := by
  have hfinal : final.destructor = .notified ∧ final.notifying = 0 ∧
      final.threads[worker]? = some .waiting := by
    refine TransitionSystem.run_invariant (fun reached ↦ reached.destructor = .notified ∧
      reached.notifying = 0 ∧ reached.threads[worker]? = some .waiting) ?_ hlabels
      ⟨hdestructor, hnotifying, hthread⟩ hrun
    rintro before label after ⟨hnotified, hnone, hwaiting⟩ ⟨hspurious, hlabel⟩ hstep
    have hafter := notifying_of_effect hnone hlabel hstep
    have heffect := effect_of_step hstep
    have hother : ∀ {other : ℕ} {thread : Worker Task}, before.threads[other]? = some thread →
        thread ≠ .waiting → ∀ place : Worker Task,
          (before.threads.set other place)[worker]? = some .waiting := by
      intro other thread hget hne place
      have hne' : other ≠ worker := by
        rintro rfl
        rw [hget] at hwaiting
        exact hne (Option.some.inj hwaiting)
      rw [List.getElem?_set_ne hne', hwaiting]
    cases heffect with
    | enqueue task => exact absurd rfl (hlabel task)
    | notifyNone => exact ⟨hnotified, hafter, hwaiting⟩
    | @wake _ other _ hwake hget =>
      rcases hwake with ⟨-, hpending⟩ | rfl
      · omega
      · have hne : other ≠ worker := fun heq ↦ hspurious (by rw [heq])
        exact ⟨hnotified, hafter, by rw [← hwaiting]; exact List.getElem?_set_ne hne⟩
    | pass hget | fail hget | block hget | take hget | «return» hget | finish hget =>
      exact ⟨hnotified, hafter, hother hget (by nofun) _⟩
    | store hbefore =>
      rw [hnotified] at hbefore
      cases hbefore
    | notifyAll hstored =>
      rw [hnotified] at hstored
      cases hstored
  exact hfinal.2.2

/-- With a destructor that does not lock, from any state before it with no `notify_one` to come, in
a run of the workers and the destructor: no worker is ever stranded exactly when `notify_all` is not
called between a test that fails and the `block` after it; and when it is not, the workers can all
return after it. -/
theorem not_stranded_along_iff {start final : State Task}
    (hreach : (system false num).Reachable start) (hbefore : start.destructor = .before)
    (hnotifying : start.notifying = 0) {labels : List (Label Task)}
    (hlabels : ∀ label ∈ labels, ∀ task, label ≠ .enqueue task)
    (hrun : (system false num).run start labels = some final) :
    ((system false num).HoldsAlong (fun state ↦ ¬ Stranded state) start labels ↔
      (system false num).GuardedRun NotifiesUnblocked start labels) ∧
    ((system false num).GuardedRun NotifiesUnblocked start labels →
      final.destructor = .notified →
        ∃ more done, (∀ label ∈ more, label.ofWorker) ∧
          (system false num).run final more = some done ∧
          ∀ thread ∈ done.threads, thread = .returned) := by
  have hinv := inv_of_reachable hreach
  have hawake := holdsAlong_awake_iff hinv (awake_of_before hbefore) hrun
  constructor
  · rw [← hawake]
    exact TransitionSystem.holdsAlong_congr (fun state ↦ state.notifying = 0)
      (fun _ _ _ hstate hlabel hstep ↦ notifying_of_effect hstate hlabel hstep)
      (fun _ hstate ↦ not_stranded_iff hstate) labels start hlabels hnotifying
  · intro hguarded hnotified
    have hfinal := inv_of_reachable (hreach.of_run labels hrun)
    exact Closing.completes ⟨hfinal, hnotified, (hawake.mpr hguarded).final hrun⟩

/-- A worker that waits when the destructor starts is woken. -/
theorem not_stranded_waiting :
    let labels : List (Label ℕ) := [.test 0, .block 0, .store, .notifyAll]
    (system false 1).HoldsAlong (fun state ↦ ¬ Stranded state) (State.new 1) labels := by
  intro labels
  have hrun : ∃ final, (system false 1).run (State.new 1) labels = some final := ⟨_, rfl⟩
  obtain ⟨final, hfinal⟩ := hrun
  exact (not_stranded_along_iff (.initial rfl) rfl rfl (by simp [labels]) hfinal).1.mpr (by decide)

/-- The destructor runs between the test of a worker and its wait. -/
theorem stranded_blocking :
    ¬ ∀ state : State ℕ, (system false 1).Reachable state → ¬ Stranded state := by
  intro hnever
  have hreach : ∃ state : State ℕ, (system false 1).Reachable state ∧
      state.destructor = .notified ∧ state.notifying = 0 ∧ state.threads = [.waiting] :=
    ⟨_, .of_run (.initial rfl) [.test 0, .store, .notifyAll, .block 0] rfl, rfl, rfl, rfl⟩
  obtain ⟨state, hstate, hnotified, hnotifying, hthreads⟩ := hreach
  refine hnever state hstate ⟨hnotified, hnotifying, .waiting, ?_, .inr rfl⟩
  rw [hthreads]
  exact List.mem_singleton_self _

/-- Under its lock the destructor finds no worker between a test that failed and the wait set, and
after it none comes there. -/
theorem unblocked_of_locked (hreach : (system true num).Reachable state) :
    Inv num state ∧ (state.stop = true → ∀ thread ∈ state.threads, thread ≠ .blocking) ∧
      Awake state := by
  refine hreach.invariant (fun reached ↦ Inv num reached ∧
    (reached.stop = true → ∀ thread ∈ reached.threads, thread ≠ .blocking) ∧ Awake reached) ?_ ?_
  · rintro start rfl
    refine ⟨inv_new num, fun _ thread hmem ↦ ?_, awake_of_before rfl⟩
    rw [List.eq_of_mem_replicate hmem]
    nofun
  · rintro before label after ⟨hinv, hunblocked, hawake⟩ - hstep
    have heffect := effect_of_step hstep
    have hput : ∀ {worker : ℕ} {thread : Worker Task}, thread ≠ .blocking →
        before.stop = true → ∀ other ∈ before.threads.set worker thread, other ≠ .blocking :=
      fun hne hstop ↦ forall_mem_set (hunblocked hstop) hne
    have hguard : NotifiesUnblocked before label := by
      cases heffect with
      | notifyAll hdestructor =>
        exact hunblocked (hinv.stopped.mpr (by rw [hdestructor]; decide))
      | wake hlabel => rcases hlabel with ⟨rfl, -⟩ | rfl <;> trivial
      | _ => trivial
    refine ⟨hinv.effect heffect, ?_, (awake_effect_iff hinv hawake heffect).mpr hguard⟩
    cases heffect with
    | enqueue | notifyNone => exact hunblocked
    | wake | pass | block | take | «return» | finish => exact hput (by nofun)
    | fail hthread hfree hpred =>
      intro hstop
      simp [State.pred, show before.stop = true from hstop] at hpred
    | store hdestructor hlocked =>
      rintro - thread hmem rfl
      have hheld : Held before.threads none := hlocked rfl ▸ hinv.held
      cases hheld.holds_eq_false _ hmem
    | notifyAll hdestructor =>
      intro hstop thread hmem
      obtain ⟨other, hother, rfl⟩ := List.mem_map.mp hmem
      exact (woken_of_ne_blocking (hunblocked hstop other hother)).1

/-- With a destructor that locks, in every run: after `notify_all` no worker is in the wait set or
about to join it, the loop of some worker has a step while a worker has not returned and no task is
being run, and the workers can all return. -/
theorem awake_of_locked (hreach : (system true num).Reachable state) :
    (state.destructor = .notified →
      ∀ thread ∈ state.threads, thread ≠ .blocking ∧ thread ≠ .waiting) ∧
    (state.destructor = .notified → (∃ thread ∈ state.threads, thread ≠ .returned) →
      state.tpl.running = [] →
        ∃ label next, label.ofLoop = true ∧ step true state label = some next) ∧
    (state.destructor = .notified →
      ∃ labels final, (∀ label ∈ labels, label.ofWorker) ∧
        (system true num).run state labels = some final ∧
        ∀ thread ∈ final.threads, thread = .returned) := by
  obtain ⟨hinv, -, hawake⟩ := unblocked_of_locked hreach
  exact ⟨hawake, fun hnotified ↦ Closing.exists_loop_step ⟨hinv, hnotified, hawake⟩,
    fun hnotified ↦ Closing.completes ⟨hinv, hnotified, hawake⟩⟩

/-- Under its lock the destructor wakes a worker that waits. -/
theorem awake_of_locked_waiting :
    ∃ state : State ℕ, (system true 1).Reachable state ∧ state.destructor = .notified ∧
      ∃ label next, label.ofLoop = true ∧ step true state label = some next := by
  have hreach : ∃ state : State ℕ, (system true 1).Reachable state ∧
      state.destructor = .notified ∧ state.threads = [.ready] :=
    ⟨_, .of_run (.initial rfl) [.test 0, .block 0, .store, .notifyAll] rfl, rfl, rfl⟩
  obtain ⟨state, hstate, hnotified, hthreads⟩ := hreach
  refine ⟨state, hstate, hnotified, (awake_of_locked hstate).2.1 hnotified ?_ ?_⟩
  · rw [hthreads]
    exact ⟨.ready, List.mem_singleton_self _, nofun⟩
  · rw [State.tpl, hthreads]
    rfl

end Runs

end Steps

end Reactor.WorkerPool
