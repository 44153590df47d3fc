import Reactor.Wakeup
import Reactor.Library.Measure

/-!
# A loop that is told to stop

`EventLoop::stop` assigns `stop_` and then writes the `eventfd`. The write is there because the loop
may be in `epoll_wait`; it is lost on no loop. A loop that is in `epoll_wait` when `stop_` is
assigned finds the `eventfd` readable as soon as it is written, since nothing else is done with the
`eventfd` before the loop has left (`Woken`). A loop that is anywhere else tests `stop_` before it
comes to `epoll_wait` again.

`ahead` bounds the steps the thread of the loop still has in `run`: its way through the batch, and
the tasks in the queue, which are calls of `send_inloop`. `returns` says that these are all its
steps, but for tasks that other threads push meanwhile, and that it always has the next one, unless
it is in the handlers of its batch and these do not return, as `onmessage` may not.
-/

set_option autoImplicit false
set_option relaxedAutoImplicit false

namespace Reactor.StoppedLoop

open Library Wakeup

section Loop

variable {Task : Type*}

/-- The step is one of the thread of the loop. -/
def own : Label Task → Bool
  | .test | .epollWait _ | .read | .lock | .runTask | .release | .handled => true
  | .push _ _ | .write _ | .call _ | .assign _ => false

/-- The step is one of the thread of the loop, when no descriptor but the `eventfd` gets ready, and
the handlers of the batch return or not. A batch has been handled when all of them have returned,
and the wake-up channel in it is handled when those before it have. -/
def Alone (handlersReturn : Prop) : Label Task → Prop
  | .test | .epollWait true | .lock | .runTask | .release => True
  | .read | .handled => handlersReturn
  | .push _ _ | .write _ | .call _ | .assign _ | .epollWait false => False

/-- The step is the push of a task. -/
def pushes : Label Task → Bool
  | .push _ _ => true
  | _ => false

/-- How far a place in `run` is from the return, once `stop_` is assigned. -/
def distance : Phase → ℕ
  | .returned => 0
  | .testing => 1
  | .handling false => 2
  | .draining => 3
  | .locking => 4
  | .handling true => 5
  | .waiting => 6

/-- How many steps the loop has before it, once `stop_` is assigned. -/
def ahead (state : State Task) : ℕ := distance state.phase + state.loop.taskQueue.length

/-- The mutex is held in `handle_wakeup` only, and a loop that is in `epoll_wait` though `stop_` is
assigned can be woken, or is about to be. -/
structure Woken (state : State Task) : Prop where
  draining : state.loop.draining = true ↔ state.phase = .draining
  stopped : state.stop = true → state.phase = .waiting →
    0 < state.loop.eventfd ∨ ∃ thread, state.threads thread = .stopped

/-- A thread that was not about to write for a `stop` hides no other that is. -/
theorem exists_stopped_update {threads : ℕ → Caller} {thread : ℕ}
    (hthread : threads thread ≠ .stopped) (caller : Caller)
    (hstopped : ∃ other, threads other = .stopped) :
    ∃ other, Function.update threads thread caller other = .stopped := by
  obtain ⟨other, hother⟩ := hstopped
  have hne : other ≠ thread := fun heq ↦ hthread (heq ▸ hother)
  exact ⟨other, by rw [Function.update_of_ne hne, hother]⟩

theorem Woken.effect {state next : State Task} {label : Label Task} (hwoken : Woken state)
    (heffect : Effect state label next) : Woken next := by
  have hothers : ∀ {thread : ℕ} (caller : Caller), state.threads thread ≠ .stopped →
      state.stop = true → state.phase = .waiting → 0 < state.loop.eventfd ∨
        ∃ other, Function.update state.threads thread caller other = .stopped :=
    fun caller hthread hstop hphase ↦
      (hwoken.stopped hstop hphase).imp_right (exists_stopped_update hthread caller)
  have hfree : ∀ {phase : Phase}, state.phase = phase → phase ≠ .draining →
      state.loop.draining = false := by
    intro phase hphase hne
    rw [← Bool.not_eq_true, hwoken.draining, hphase]
    exact hne
  cases heffect with
  | push task hthread => exact ⟨hwoken.draining, hothers _ (by simp [hthread])⟩
  | call hthread => exact ⟨hwoken.draining, hothers _ (by simp [hthread])⟩
  | accept | wake => exact ⟨hwoken.draining, fun _ _ ↦ .inl state.loop.eventfd_wakeup_pos⟩
  | @assign thread hthread =>
    exact ⟨hwoken.draining, fun _ _ ↦ .inr ⟨thread, Function.update_self _ _ _⟩⟩
  | goOn hphase hstop =>
    refine ⟨by simp [hfree hphase], fun hassigned ↦ ?_⟩
    rw [hstop] at hassigned
    cases hassigned
  | leave hphase | epollWait hphase | read hphase | handled hphase =>
    exact ⟨by simp [EventLoop.read, hfree hphase], fun _ h ↦ by cases h⟩
  | lock | release => exact ⟨by simp, fun _ h ↦ by cases h⟩
  | runTask hphase =>
    refine ⟨hwoken.draining, fun _ hwaiting ↦ ?_⟩
    cases hphase.symm.trans hwaiting

/-- Once `stop_` is assigned it stays so, a step of the loop brings it nearer to its return, and
only a push takes it further away. -/
theorem ahead_effect {state next : State Task} {label : Label Task} (hstop : state.stop = true)
    (heffect : Effect state label next) :
    next.stop = true ∧ ahead next + (own label).toNat ≤ ahead state + (pushes label).toNat := by
  cases heffect with
  | push => exact ⟨hstop, by simp [ahead, own, pushes, State.put]; omega⟩
  | accept | wake | call => exact ⟨hstop, by simp [ahead, own, pushes, State.put]⟩
  | assign => exact ⟨rfl, by simp [ahead, own, pushes, State.put]⟩
  | goOn hphase hgo =>
    rw [hstop] at hgo
    cases hgo
  | @epollWait reported hphase =>
    cases reported <;> exact ⟨hstop, by simp [ahead, own, pushes, hphase, distance]⟩
  | leave hphase | read hphase | lock hphase | handled hphase =>
    exact ⟨hstop, by simp [ahead, own, pushes, hphase, distance, EventLoop.read]⟩
  | runTask hphase hqueue | release hphase hqueue =>
    exact ⟨hstop, by simp [ahead, own, pushes, hphase, hqueue, distance]⟩

/-- While nobody is between the assignment and the write, the loop has a step on its own until it
has returned, unless it is in handlers that do not return. -/
theorem exists_alone {handlersReturn : Prop} {state : State Task} (hwoken : Woken state)
    (hstop : state.stop = true) (hreturned : state.phase ≠ .returned)
    (hnobody : ∀ thread, state.threads thread ≠ .stopped)
    (hhandlers : ∀ wakeup, state.phase = .handling wakeup → handlersReturn) :
    ∃ label, Alone handlersReturn label ∧ (step state label).isSome = true := by
  cases hphase : state.phase with
  | testing => exact ⟨.test, trivial, by simp [step, hphase]⟩
  | waiting =>
    rcases hwoken.stopped hstop hphase with hready | ⟨thread, hthread⟩
    · exact ⟨.epollWait true, trivial, by simp [step, hphase, hready]⟩
    · exact absurd hthread (hnobody thread)
  | handling wakeup =>
    have hreturn := hhandlers wakeup hphase
    cases wakeup
    · exact ⟨.handled, hreturn, by simp [step, hphase]⟩
    · exact ⟨.read, hreturn, by simp [step, hphase]⟩
  | locking =>
    have hfree : state.loop.draining = false := by
      rw [← Bool.not_eq_true, hwoken.draining, hphase]
      simp
    exact ⟨.lock, trivial, by simp [step, hphase, EventLoop.lock, hfree]⟩
  | draining =>
    have hheld := hwoken.draining.mpr hphase
    cases hqueue : state.loop.taskQueue with
    | nil => exact ⟨.release, trivial, by simp [step, hphase, EventLoop.release, hheld, hqueue]⟩
    | cons task rest =>
      exact ⟨.runTask, trivial, by simp [step, hphase, EventLoop.pop, hheld, hqueue]⟩
  | returned => exact absurd hphase hreturned

theorem woken_of_reachable {state : State Task} (hreach : system.Reachable state) :
    Woken state := by
  refine hreach.invariant Woken ?_
    fun _ _ _ hwoken _ hstep ↦ hwoken.effect (effect_of_step hstep)
  rintro start rfl
  exact ⟨by simp [State.new, EventLoop.new], nofun⟩

/-- In every run from a state in which `stop_` is assigned, whatever other threads do and whatever
gets ready: the loop makes no more steps than it has before it and tasks are pushed meanwhile. At
the end of the run it has returned, or a thread is still to write the `eventfd` for its `stop`, or
the loop is in handlers that do not return, or it has a step, though no other descriptor be ready. -/
theorem returns {handlersReturn : Prop} {state final : State Task} {labels : List (Label Task)}
    (hreach : system.Reachable state) (hstop : state.stop = true)
    (hrun : system.run state labels = some final) :
    labels.countP own ≤ ahead state + labels.countP pushes ∧
      (final.phase = .returned ∨ (∃ thread, final.threads thread = .stopped) ∨
        (¬ handlersReturn ∧ ∃ wakeup, final.phase = .handling wakeup) ∨
        ∃ label, Alone handlersReturn label ∧ (step final label).isSome = true) := by
  have hany : ∀ label ∈ labels, True := fun _ _ ↦ trivial
  have hcount := TransitionSystem.countP_add_measure_le own pushes 1 ahead
    (fun state : State Task ↦ state.stop = true)
    (fun _ _ _ hassigned _ hstep ↦ by
      rw [Nat.one_mul]
      exact ahead_effect hassigned (effect_of_step hstep)) hany hstop hrun
  have hassigned : final.stop = true :=
    TransitionSystem.run_invariant (fun reached : State Task ↦ reached.stop = true)
      (fun _ _ _ hbefore _ hstep ↦ (ahead_effect hbefore (effect_of_step hstep)).1) hany hstop hrun
  refine ⟨by omega, ?_⟩
  by_cases hreturned : final.phase = .returned
  · exact .inl hreturned
  by_cases hstopped : ∃ thread, final.threads thread = .stopped
  · exact .inr (.inl hstopped)
  by_cases hstays : ¬ handlersReturn ∧ ∃ wakeup, final.phase = .handling wakeup
  · exact .inr (.inr (.inl hstays))
  · refine .inr (.inr (.inr (exists_alone (woken_of_reachable (hreach.of_run labels hrun)) hassigned
      hreturned (not_exists.mp hstopped) fun wakeup hphase ↦ ?_)))
    by_contra hreturn
    exact hstays ⟨hreturn, wakeup, hphase⟩

/-- A loop that waits is told to stop while a thread pushes a task. -/
theorem returns_waiting : ∃ state final : State ℕ, state.phase = .waiting ∧
    final.threads 1 = .idle ∧ (final.phase = .returned ∨
      (∃ thread, final.threads thread = .stopped) ∨
        (¬ True ∧ ∃ wakeup, final.phase = .handling wakeup) ∨
        ∃ label, Alone True label ∧ (step final label).isSome = true) := by
  obtain ⟨state, hreach, hstop, hwaiting, hrun⟩ : ∃ state : State ℕ, system.Reachable state ∧
      state.stop = true ∧ state.phase = .waiting ∧
        ∃ final, system.run state [.push 0 7, .write 1, .epollWait true] = some final ∧
          final.threads 1 = .idle :=
    ⟨_, .of_run (.initial rfl) [.test, .call 1, .assign 1] rfl, rfl, rfl, _, rfl, rfl⟩
  obtain ⟨final, hrun, hidle⟩ := hrun
  exact ⟨state, final, hwaiting, hidle, (returns hreach hstop hrun).2⟩

end Loop

end Reactor.StoppedLoop
