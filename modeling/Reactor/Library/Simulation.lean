import Reactor.Library.TransitionSystem

/-!
# Forward simulation

A relation between the states of two systems is a forward simulation when every initial state of the
first is related to one of the second, and every guarded step of the first is matched, in related
states, by a guarded run of the second that ends in related states. The run may have any length: a
step that the second system does not see is matched by none.

Then every state that the first system reaches is related to one that the second reaches
(`Simulation.reaches`), so what holds of all states reached by the second holds, through the
relation, of those reached by the first. The guards say along which runs.
-/

set_option autoImplicit false
set_option relaxedAutoImplicit false

namespace Reactor.Library

variable {State Label AbstractState AbstractLabel : Type*}

/-- A forward simulation of a system by another one, along runs under a guard each. -/
structure Simulation (concrete : TransitionSystem State Label)
    (abstract : TransitionSystem AbstractState AbstractLabel) (guard : State → Label → Prop)
    (abstractGuard : AbstractState → AbstractLabel → Prop)
    (relates : State → AbstractState → Prop) : Prop where
  initial : ∀ state, concrete.initial state →
    ∃ abstractState, abstract.initial abstractState ∧ relates state abstractState
  step : ∀ state abstractState label next, relates state abstractState → guard state label →
    concrete.step state label = some next →
      ∃ labels abstractNext, abstract.GuardedRun abstractGuard abstractState labels ∧
        abstract.run abstractState labels = some abstractNext ∧ relates next abstractNext

namespace Simulation

variable {concrete : TransitionSystem State Label}
  {abstract : TransitionSystem AbstractState AbstractLabel} {guard : State → Label → Prop}
  {abstractGuard : AbstractState → AbstractLabel → Prop}
  {relates : State → AbstractState → Prop} {state : State}

/-- Every state reached is related to one that the other system reaches. -/
theorem reaches (hsimulation : Simulation concrete abstract guard abstractGuard relates)
    (hreach : concrete.ReachesUnder guard state) :
    ∃ abstractState, abstract.ReachesUnder abstractGuard abstractState ∧
      relates state abstractState := by
  induction hreach with
  | initial hinitial =>
    obtain ⟨abstractState, hstart, hrelates⟩ := hsimulation.initial _ hinitial
    exact ⟨abstractState, .initial hstart, hrelates⟩
  | step _ hguard hstep ih =>
    obtain ⟨abstractState, habstract, hrelates⟩ := ih
    obtain ⟨labels, abstractNext, hguarded, hrun, hnext⟩ :=
      hsimulation.step _ _ _ _ hrelates hguard hstep
    exact ⟨abstractNext, habstract.of_run labels hguarded hrun, hnext⟩

end Simulation

end Reactor.Library
