import Reactor.EdgeTriggering

/-!
# The main thread at a connection

The main thread works on the connections of a sub-loop while the sub-loop runs. `newconnection`
constructs a connection, which registers it, and then sets its four callbacks one after the other;
`handle_timer` clears the four callbacks of a connection it finds idle, erases it from the map and
deletes it. This is the sub-loop of `EdgeTriggering` with the main thread in one of the two, or in
neither. Both set or clear the callbacks in one order, so that the number of callbacks done says
which are set (`Phase.callbacks`); in `loop` all connections have theirs set. A handler of the
connection the main thread is at runs with those that are set (`facing`), so that a message or a
close may find none.

A call of a handler is one step. Along runs that are `Undisturbed` nothing of this is seen: no event
of a connection is handled while the main thread is at it, and none that is still to be handled is
of a connection that the timer deletes.
-/

set_option autoImplicit false
set_option relaxedAutoImplicit false

namespace Reactor.MainThread

open Library
open EdgeTriggering (Circumstances Pointer)

inductive Phase
  | idle
  /-- It is in `newconnection` and has set some of the four callbacks. -/
  | setting (fd : Fd) (count : ℕ)
  /-- It is in `handle_timer`, past a test that found the connection idle, and has cleared some of
  the four callbacks. -/
  | clearing (fd : Fd) (count : ℕ)
  deriving DecidableEq

/-- The connection the main thread is at. -/
def Phase.fd? : Phase → Option Fd
  | .idle => none
  | .setting fd _ | .clearing fd _ => some fd

/-- Whether a callback of it is set. -/
def Phase.callbackSet (phase : Phase) (index : ℕ) : Bool :=
  match phase with
  | .idle => true
  | .setting _ count => decide (index < count)
  | .clearing _ count => decide (count ≤ index)

/-- The connection with the callbacks that are set. -/
def Phase.callbacks (phase : Phase) (connection : Connection) : Connection :=
  { connection with
    closecallback := phase.callbackSet 0
    errorcallback := phase.callbackSet 1
    messagecallback := phase.callbackSet 2
    sendcompletioncallback := phase.callbackSet 3 }

/-- The main thread, with the timeout of the server. -/
structure Main where
  phase : Phase
  timeout : ℤ

structure State where
  loop : EdgeTriggering.State
  main : Main

/-- A step of the main thread at a connection that has been constructed. -/
inductive Action
  | setcallback
  | timeout (fd : Fd) (now : ℤ)
  | clear
  | evict

inductive Label
  | loop (label : EdgeTriggering.Label)
  | main (action : Action)

/-- The main thread goes on. -/
def State.enter (state : State) (phase : Phase) : State :=
  { state with main := { state.main with phase } }

/-- Whether the object of a descriptor is there. -/
def State.live (state : State) (fd : Fd) : Prop := (state.loop.connections fd).isSome = true

instance (state : State) (fd : Fd) : Decidable (state.live fd) :=
  inferInstanceAs (Decidable (_ = true))

def act (state : State) : Action → Option State
  | .setcallback =>
    match state.main.phase with
    | .setting fd count =>
      if count < 4 then
        if state.live fd then some (state.enter (.setting fd (count + 1))) else none
      else some (state.enter .idle)
    | _ => none
  | .timeout fd now =>
    match state.loop.connections fd with
    | none => none
    | some connection =>
      if state.main.phase = .idle ∧ connection.timeout now state.main.timeout = true then
        some (state.enter (.clearing fd 0))
      else none
  | .clear =>
    match state.main.phase with
    | .clearing fd count =>
      if count < 4 ∧ state.live fd then some (state.enter (.clearing fd (count + 1))) else none
    | _ => none
  | .evict =>
    match state.main.phase with
    | .clearing fd 4 =>
      if state.live fd then
        some { state.enter .idle with
          loop := state.loop.put fd none (state.loop.ep.close fd) }
      else none
    | _ => none

/-- The connection whose event is handled next, when the main thread is at it. -/
def State.shared (state : State) : Option (Fd × Connection) :=
  state.loop.current.filter fun served ↦ state.main.phase.fd? = some served.1

/-- The sub-loop as its next handler finds it. -/
def State.facing (state : State) : EdgeTriggering.State :=
  match state.shared with
  | none => state.loop
  | some (fd, connection) =>
    state.loop.put fd (some (state.main.phase.callbacks connection)) state.loop.ep

/-- The sub-loop after this handler. -/
def State.handled (state : State) (next : EdgeTriggering.State) : EdgeTriggering.State :=
  match state.shared with
  | none => next
  | some (fd, _) =>
    next.put fd ((next.connections fd).map (Phase.callbacks .idle)) next.ep

section Steps

variable (workers : ℕ)

def step (state : State) : Label → Option State
  | .main action => act state action
  | .loop (.accept fd this now level) =>
    if state.main.phase = .idle then
      (EdgeTriggering.step workers state.loop (.accept fd this now level)).map fun loop ↦
        { state.enter (.setting fd 0) with loop }
    else none
  | .loop (.handleevent circumstances) =>
    (EdgeTriggering.step workers state.facing (.handleevent circumstances)).map fun loop ↦
      { state with loop := state.handled loop }
  | .loop label => (EdgeTriggering.step workers state.loop label).map fun loop ↦ { state with loop }

/-- A sub-loop without connections, and a main thread in `epoll_wait`. -/
structure Initial (state : State) : Prop where
  loop : EdgeTriggering.Initial state.loop
  phase : state.main.phase = .idle

/-- The sub-loop and the main thread, for a number of worker threads. -/
def system : TransitionSystem State Label where
  initial := Initial
  step := step workers

end Steps

/-- No event is handled of the connection the main thread is at, and the timer deletes none with an
event that is still to be handled. -/
def Undisturbed (state : State) : Label → Prop
  | .loop (.handleevent _) => state.shared = none
  | .main .evict => ∀ fd ∈ state.main.phase.fd?, .connection fd ∉ state.loop.batch
  | _ => True

instance (state : State) : ∀ label, Decidable (Undisturbed state label)
  | .loop (.handleevent _) => inferInstanceAs (Decidable (state.shared = none))
  | .main .evict =>
    inferInstanceAs (Decidable (∀ fd ∈ state.main.phase.fd?, .connection fd ∉ state.loop.batch))
  | .loop (.accept _ _ _ _) | .loop (.raise _ _) | .loop (.epollWait _)
  | .loop (.handleWakeup _) => .isTrue trivial
  | .main .setcallback | .main (.timeout _ _) | .main .clear => .isTrue trivial

/-- A step of the sub-loop that rearms, or one of the main thread. -/
def Rearming (workers : ℕ) (state : State) : Label → Prop
  | .loop label => EdgeTriggering.Rearming workers state.loop label
  | .main _ => True

instance (workers : ℕ) (state : State) : ∀ label, Decidable (Rearming workers state label)
  | .loop label => inferInstanceAs (Decidable (EdgeTriggering.Rearming workers state.loop label))
  | .main _ => .isTrue trivial

/-- A sub-loop without connections, and an idle main thread. -/
def start : State := ⟨EdgeTriggering.start, ⟨.idle, 10⟩⟩

theorem start_initial : Initial start := ⟨EdgeTriggering.start_initial, rfl⟩

/-! ### What is seen of the main thread -/

/-- What an undisturbed step makes of the sub-loop: it is a step of the sub-loop, or the main thread
deletes a connection that has nothing to be handled, or the sub-loop stays as it is. -/
inductive Moves (workers : ℕ) (loop : EdgeTriggering.State) : Label → EdgeTriggering.State → Prop
  | step {label : EdgeTriggering.Label} {next : EdgeTriggering.State}
      (hstep : EdgeTriggering.step workers loop label = some next) :
      Moves workers loop (.loop label) next
  | evict (fd : Fd) (hbatch : .connection fd ∉ loop.batch) :
      Moves workers loop (.main .evict) (loop.put fd none (loop.ep.close fd))
  | stay {action : Action} : Moves workers loop (.main action) loop

section Undisturbed

variable {workers : ℕ} {state next : State}

/-- The main thread leaves the sub-loop alone, but for an eviction. -/
theorem moves_of_act {action : Action} (hguard : Undisturbed state (.main action))
    (hstep : act state action = some next) : Moves workers state.loop (.main action) next.loop := by
  cases action with
  | setcallback =>
    rw [act] at hstep
    split at hstep
    · split_ifs at hstep <;> cases hstep <;> exact .stay
    · cases hstep
  | timeout fd now =>
    rw [act] at hstep
    split at hstep
    · cases hstep
    · obtain ⟨-, hnext⟩ := Option.ite_none_right_eq_some.mp hstep
      cases hnext
      exact .stay
  | clear =>
    rw [act] at hstep
    split at hstep
    · obtain ⟨-, hnext⟩ := Option.ite_none_right_eq_some.mp hstep
      cases hnext
      exact .stay
    · cases hstep
  | evict =>
    rw [act] at hstep
    split at hstep
    · rename_i fd hphase
      obtain ⟨-, hnext⟩ := Option.ite_none_right_eq_some.mp hstep
      cases hnext
      exact .evict fd (hguard fd (congrArg Phase.fd? hphase))
    · cases hstep

/-- When the main thread is not at the connection, its handler runs on the sub-loop as it is. -/
theorem facing_of_undisturbed (hshared : state.shared = none) : state.facing = state.loop := by
  rw [State.facing, hshared]

theorem moves_of_step {label : Label} (hguard : Undisturbed state label)
    (hstep : step workers state label = some next) : Moves workers state.loop label next.loop := by
  cases label with
  | main action => exact moves_of_act hguard hstep
  | loop label =>
    cases label with
    | accept fd this now level =>
      obtain ⟨-, hnext⟩ := Option.ite_none_right_eq_some.mp hstep
      obtain ⟨loop, hloop, rfl⟩ := Option.map_eq_some_iff.mp hnext
      exact .step hloop
    | handleevent circumstances =>
      obtain ⟨loop, hloop, rfl⟩ := Option.map_eq_some_iff.mp hstep
      have hshared : state.shared = none := hguard
      rw [facing_of_undisturbed hshared] at hloop
      rw [State.handled, hshared]
      exact .step hloop
    | raise | epollWait | handleWakeup =>
      simp only [step, Option.map_eq_some_iff] at hstep
      obtain ⟨loop, hloop, rfl⟩ := hstep
      exact .step hloop

/-- An eviction strands no output either. -/
theorem Moves.inv {label : Label} {loop : EdgeTriggering.State}
    (hmoves : Moves workers state.loop label loop) (hrearming : Rearming workers state label)
    (hinv : EdgeTriggering.Inv none state.loop) : EdgeTriggering.Inv none loop := by
  cases hmoves with
  | step hstep => exact hinv.step hrearming hstep
  | evict fd hbatch =>
    exact hinv.put (EdgeTriggering.sameElse_close _ _) (fun _ _ hne ↦ hne)
      fun _ hnone ↦ by cases hnone
  | stay => exact hinv

end Undisturbed

end Reactor.MainThread
