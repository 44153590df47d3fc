import Mathlib.Data.List.Basic

/-!
# Labelled transition systems and runs under a guard

A system is a set of initial states and a partial step function: `step state label` is the state
after the step `label`, or `none` when the step is not enabled. Executability of the step function
is what lets a concrete run be replayed (`run`).

`ReachesUnder guard` is reachability along runs each of whose steps is taken in a state where the
guard holds of that step; `Reachable` is the case of the guard that always holds. `invariant` is
the induction rule: what holds initially and is kept by every guarded step holds in every state
reached. `of_run` turns a replayed list of labels into a reached state.

`HoldsAlong` and `GuardedRun` are about one replayed list: a property holds in all its states, the
guard of all its steps. `holdsAlong_iff_guardedRun` is the rule for guards that are exact, and
`exists_run_of_progress` the rule for reaching a goal.
-/

set_option autoImplicit false
set_option relaxedAutoImplicit false

namespace Reactor.Library

/-- A labelled transition system with a partial deterministic step for every label. -/
structure TransitionSystem (State Label : Type*) where
  /-- The states a run may start in. -/
  initial : State → Prop
  /-- The state after a step, or `none` when the step is not enabled. -/
  step : State → Label → Option State

namespace TransitionSystem

variable {State Label : Type*} (system : TransitionSystem State Label)

/-- The states reached by runs each of whose steps is taken where the guard holds of it. -/
inductive ReachesUnder (guard : State → Label → Prop) : State → Prop
  | initial {state : State} (hinitial : system.initial state) : ReachesUnder guard state
  | step {state next : State} {label : Label} (hreach : ReachesUnder guard state)
      (hguard : guard state label) (hstep : system.step state label = some next) :
      ReachesUnder guard next

/-- The states reached by any run. -/
abbrev Reachable (state : State) : Prop := system.ReachesUnder (fun _ _ ↦ True) state

variable {system} {guard : State → Label → Prop}

/-- The induction rule: what holds of every initial state and is kept by every guarded step holds
of every state reached under the guard. -/
theorem ReachesUnder.invariant (property : State → Prop)
    (hinitial : ∀ state, system.initial state → property state)
    (hstep : ∀ state label next, property state → guard state label →
      system.step state label = some next → property next)
    {state : State} (hreach : system.ReachesUnder guard state) : property state := by
  induction hreach with
  | initial hstart => exact hinitial _ hstart
  | step _ hguard hnext ih => exact hstep _ _ _ ih hguard hnext

/-- A run under a guard is a run under every weaker guard. -/
theorem ReachesUnder.mono {weaker : State → Label → Prop}
    (hweaker : ∀ state label, guard state label → weaker state label) {state : State}
    (hreach : system.ReachesUnder guard state) : system.ReachesUnder weaker state := by
  induction hreach with
  | initial hstart => exact .initial hstart
  | step _ hguard hnext ih => exact .step ih (hweaker _ _ hguard) hnext

/-- A state reached under a guard is reachable. -/
theorem ReachesUnder.reachable {state : State} (hreach : system.ReachesUnder guard state) :
    system.Reachable state :=
  hreach.mono fun _ _ _ ↦ trivial

variable (system)

/-- Replays a list of steps, oldest first. -/
def run (state : State) : List Label → Option State
  | [] => some state
  | label :: rest => (system.step state label).bind fun next ↦ run next rest

/-- Every step of a list, replayed from a state, is taken where the guard holds of it. -/
def GuardedRun (guard : State → Label → Prop) (state : State) : List Label → Prop
  | [] => True
  | label :: rest =>
    guard state label ∧
      match system.step state label with
      | none => True
      | some next => GuardedRun guard next rest

/-- Whether a guard that can be tested holds along a list of steps can be tested. -/
instance decidableGuardedRun (guard : State → Label → Prop)
    [∀ state label, Decidable (guard state label)] :
    ∀ (state : State) (labels : List Label), Decidable (system.GuardedRun guard state labels)
  | _, [] => .isTrue trivial
  | state, label :: rest =>
    haveI : Decidable (match system.step state label with
        | none => True
        | some next => system.GuardedRun guard next rest) :=
      match system.step state label with
      | none => .isTrue trivial
      | some next => decidableGuardedRun guard next rest
    inferInstanceAs (Decidable (_ ∧ _))

/-- A property holds in every state of a replayed list of steps. -/
def HoldsAlong (property : State → Prop) (state : State) : List Label → Prop
  | [] => property state
  | label :: rest =>
    property state ∧
      match system.step state label with
      | none => True
      | some next => HoldsAlong property next rest

variable {system}

@[simp] theorem run_cons (state : State) (label : Label) (rest : List Label) :
    system.run state (label :: rest) =
      (system.step state label).bind fun next ↦ system.run next rest := rfl

/-- A list of steps is replayed part by part. -/
theorem run_append (state : State) (first second : List Label) :
    system.run state (first ++ second) =
      (system.run state first).bind fun next ↦ system.run next second := by
  induction first generalizing state with
  | nil => rfl
  | cons label rest ih =>
    rw [List.cons_append, run_cons, run_cons, Option.bind_assoc]
    congr 1
    funext next
    exact ih next

/-- The state a guarded list of steps ends in is reached under the guard. -/
theorem ReachesUnder.of_run {state final : State} (hreach : system.ReachesUnder guard state)
    (labels : List Label) (hguarded : system.GuardedRun guard state labels)
    (hrun : system.run state labels = some final) : system.ReachesUnder guard final := by
  induction labels generalizing state with
  | nil =>
    obtain rfl : state = final := Option.some.inj hrun
    exact hreach
  | cons label rest ih =>
    rw [run_cons, Option.bind_eq_some_iff] at hrun
    obtain ⟨next, hstep, hrest⟩ := hrun
    obtain ⟨hlabel, hguarded⟩ := hguarded
    rw [hstep] at hguarded
    exact ih (.step hreach hlabel hstep) hguarded hrest

/-- A list of steps is guarded when the guard holds of them wherever they are taken. -/
theorem guardedRun_of_forall {labels : List Label}
    (hall : ∀ label ∈ labels, ∀ state, guard state label) (state : State) :
    system.GuardedRun guard state labels := by
  induction labels generalizing state with
  | nil => trivial
  | cons label rest ih =>
    refine ⟨hall label List.mem_cons_self state, ?_⟩
    split
    · trivial
    · exact ih (fun other hother ↦ hall other (List.mem_cons_of_mem _ hother)) _

/-- A list of steps guarded by two guards is guarded by both. -/
theorem GuardedRun.and {other : State → Label → Prop} {labels : List Label} {state : State}
    (hfirst : system.GuardedRun guard state labels)
    (hsecond : system.GuardedRun other state labels) :
    system.GuardedRun (fun before label ↦ guard before label ∧ other before label) state
      labels := by
  induction labels generalizing state with
  | nil => trivial
  | cons label rest ih =>
    obtain ⟨hlabel, hrest⟩ := hfirst
    obtain ⟨hotherLabel, hotherRest⟩ := hsecond
    refine ⟨⟨hlabel, hotherLabel⟩, ?_⟩
    cases hstep : system.step state label with
    | none => trivial
    | some next =>
      rw [hstep] at hrest hotherRest
      exact ih hrest hotherRest

/-- Every list of steps is guarded by the guard that always holds. -/
theorem guardedRun_true (state : State) (labels : List Label) :
    system.GuardedRun (fun _ _ ↦ True) state labels :=
  guardedRun_of_forall (fun _ _ _ ↦ trivial) state

/-- The state a list of steps ends in, from a reachable state, is reachable. -/
theorem Reachable.of_run {state final : State} (hreach : system.Reachable state)
    (labels : List Label) (hrun : system.run state labels = some final) :
    system.Reachable final :=
  ReachesUnder.of_run hreach labels (guardedRun_true state labels) hrun

/-- Where every step keeps an invariant, and keeps a property exactly when the guard holds of the
step, the property holds along a list of enabled steps exactly when the guard does. -/
theorem holdsAlong_iff_guardedRun (inv property : State → Prop)
    (hinv : ∀ state label next, inv state → system.step state label = some next → inv next)
    (hexact : ∀ state label next, inv state → property state →
      system.step state label = some next → (property next ↔ guard state label)) :
    ∀ (labels : List Label) (state final : State), inv state → property state →
      system.run state labels = some final →
        (system.HoldsAlong property state labels ↔ system.GuardedRun guard state labels) := by
  intro labels
  induction labels with
  | nil => exact fun state final _ hproperty _ ↦ iff_of_true hproperty trivial
  | cons label rest ih =>
    intro state final hstate hproperty hrun
    rw [run_cons, Option.bind_eq_some_iff] at hrun
    obtain ⟨next, hstep, hrest⟩ := hrun
    have hlabel := hexact state label next hstate hproperty hstep
    simp only [HoldsAlong, GuardedRun, hstep, hproperty, true_and]
    constructor
    · intro halong
      have hnext : property next := by
        cases rest with
        | nil => exact halong
        | cons _ _ => exact halong.1
      exact ⟨hlabel.mp hnext, (ih next final (hinv _ _ _ hstate hstep) hnext hrest).mp halong⟩
    · rintro ⟨hguard, hguarded⟩
      have hnext : property next := hlabel.mpr hguard
      exact (ih next final (hinv _ _ _ hstate hstep) hnext hrest).mpr hguarded

/-- What holds along a list of enabled steps holds in the state it ends in. -/
theorem HoldsAlong.final {property : State → Prop} {state final : State} {labels : List Label}
    (halong : system.HoldsAlong property state labels)
    (hrun : system.run state labels = some final) : property final := by
  induction labels generalizing state with
  | nil =>
    obtain rfl : state = final := Option.some.inj hrun
    exact halong
  | cons label rest ih =>
    rw [run_cons, Option.bind_eq_some_iff] at hrun
    obtain ⟨next, hstep, hrest⟩ := hrun
    obtain ⟨-, halong⟩ := halong
    rw [hstep] at halong
    exact ih halong hrest

/-- Where a property that is lost does not come back, it holds along a list of steps when it holds
in the state the list ends in. -/
theorem holdsAlong_of_final (inv property : State → Prop)
    (hinv : ∀ state label next, inv state → system.step state label = some next → inv next)
    (hlost : ∀ state label next, inv state → system.step state label = some next →
      property next → property state)
    {labels : List Label} {state final : State} (hstate : inv state)
    (hrun : system.run state labels = some final) (hfinal : property final) :
    system.HoldsAlong property state labels := by
  have hboth : property state ∧ system.HoldsAlong property state labels := by
    induction labels generalizing state with
    | nil =>
      obtain rfl : state = final := Option.some.inj hrun
      exact ⟨hfinal, hfinal⟩
    | cons label rest ih =>
      rw [run_cons, Option.bind_eq_some_iff] at hrun
      obtain ⟨next, hstep, hrest⟩ := hrun
      obtain ⟨hnext, halong⟩ := ih (hinv state label next hstate hstep) hrest
      have hproperty := hlost state label next hstate hstep hnext
      refine ⟨hproperty, hproperty, ?_⟩
      rw [hstep]
      exact halong
  exact hboth.2

/-- What allowed steps keep holds after a run of them. -/
theorem run_invariant {allowed : Label → Prop} (inv : State → Prop)
    (hinv : ∀ state label next, inv state → allowed label →
      system.step state label = some next → inv next)
    {labels : List Label} (hallowed : ∀ label ∈ labels, allowed label) {state final : State}
    (hstate : inv state) (hrun : system.run state labels = some final) : inv final := by
  induction labels generalizing state with
  | nil =>
    obtain rfl : state = final := Option.some.inj hrun
    exact hstate
  | cons label rest ih =>
    obtain ⟨hlabel, hrest⟩ := List.forall_mem_cons.mp hallowed
    rw [run_cons, Option.bind_eq_some_iff] at hrun
    obtain ⟨next, hstep, hrun⟩ := hrun
    exact ih hrest (hinv state label next hstate hlabel hstep) hrun

/-- Where moreover a property that is lost does not come back, it holds in the state a list of
enabled steps ends in exactly when the guard holds of them. -/
theorem final_iff_guardedRun (inv property : State → Prop)
    (hinv : ∀ state label next, inv state → system.step state label = some next → inv next)
    (hexact : ∀ state label next, inv state → property state →
      system.step state label = some next → (property next ↔ guard state label))
    (hlost : ∀ state label next, inv state → system.step state label = some next →
      property next → property state)
    {labels : List Label} {state final : State} (hstate : inv state) (hproperty : property state)
    (hrun : system.run state labels = some final) :
    property final ↔ system.GuardedRun guard state labels := by
  rw [← holdsAlong_iff_guardedRun inv property hinv hexact labels state final hstate hproperty hrun]
  exact ⟨holdsAlong_of_final inv property hinv hlost hstate hrun, fun halong ↦ halong.final hrun⟩

/-- Two properties that agree under an invariant of the steps taken hold along the same lists. -/
theorem holdsAlong_congr {allowed : Label → Prop} {first second : State → Prop} (inv : State → Prop)
    (hinv : ∀ state label next, inv state → allowed label →
      system.step state label = some next → inv next)
    (hiff : ∀ state, inv state → (first state ↔ second state)) :
    ∀ (labels : List Label) (state : State), (∀ label ∈ labels, allowed label) → inv state →
      (system.HoldsAlong first state labels ↔ system.HoldsAlong second state labels) := by
  intro labels
  induction labels with
  | nil => exact fun state _ hstate ↦ hiff state hstate
  | cons label rest ih =>
    intro state hallowed hstate
    obtain ⟨hlabel, hrest⟩ := List.forall_mem_cons.mp hallowed
    refine and_congr (hiff state hstate) ?_
    cases hstep : system.step state label with
    | none => exact Iff.rfl
    | some next => exact ih next hrest (hinv state label next hstate hlabel hstep)

/-- The progress rule: where an invariant leaves, until the goal is met, an allowed step that keeps
the invariant and lowers a measure, a run of allowed steps meets the goal. -/
theorem exists_run_of_progress {allowed : Label → Prop} (measure : State → ℕ)
    (inv goal : State → Prop)
    (hprogress : ∀ state, inv state → ¬ goal state → ∃ label next, allowed label ∧
      system.step state label = some next ∧ inv next ∧ measure next < measure state)
    {state : State} (hstate : inv state) :
    ∃ labels final, (∀ label ∈ labels, allowed label) ∧
      system.run state labels = some final ∧ goal final := by
  induction hsize : measure state using Nat.strongRecOn generalizing state with
  | ind size ih =>
    by_cases hgoal : goal state
    · exact ⟨[], state, fun _ hmem ↦ absurd hmem List.not_mem_nil, rfl, hgoal⟩
    · obtain ⟨label, next, hlabel, hstep, hnext, hlower⟩ := hprogress state hstate hgoal
      obtain ⟨labels, final, hlabels, hrun, hfinal⟩ := ih _ (hsize ▸ hlower) hnext rfl
      refine ⟨label :: labels, final, List.forall_mem_cons.mpr ⟨hlabel, hlabels⟩, ?_, hfinal⟩
      rw [run_cons, hstep]
      exact hrun

end TransitionSystem

end Reactor.Library
