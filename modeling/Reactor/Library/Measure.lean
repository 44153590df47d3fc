import Reactor.Library.TransitionSystem
import Mathlib.Algebra.BigOperators.Intervals

/-!
# Measures that bound runs

A measure that every allowed step lowers bounds the length of the runs of allowed steps
(`length_add_measure_le`). Such a run can be prolonged until no allowed step is enabled, that is, to
a state that is `Stuck`; what is stuck is a matter of the system. A measure that the steps of a part
of the system lower, and few others raise, bounds the steps of the part
(`countP_add_measure_le`).

The measure of a system with several components is a sum over them. `sum_map_set` and
`sum_range_update` say what a change of one component does to it, as an equation with the old value
on the other side, which is the form linear arithmetic takes.
-/

set_option autoImplicit false
set_option relaxedAutoImplicit false

namespace Reactor.Library

/-! ### Sums over components -/

/-- A change of one element of a list changes the sum over it by the difference. -/
theorem sum_map_set {Component : Type*} (weight : Component → ℕ) {components : List Component}
    {index : ℕ} {old : Component} (hold : components[index]? = some old) (new : Component) :
    ((components.set index new).map weight).sum + weight old =
      (components.map weight).sum + weight new := by
  induction components generalizing index with
  | nil => cases hold
  | cons head rest ih =>
    cases index with
    | zero =>
      obtain rfl : head = old := by simpa using hold
      simp only [List.set_cons_zero, List.map_cons, List.sum_cons]
      omega
    | succ index =>
      have hrest := ih (by simpa using hold)
      simp only [List.set_cons_succ, List.map_cons, List.sum_cons]
      omega

/-- A change of one member of a family changes the sum over the first members by the difference. -/
theorem sum_range_update {Component : Type*} (weight : Component → ℕ) (family : ℕ → Component)
    {index count : ℕ} (hindex : index < count) (new : Component) :
    (∑ other ∈ Finset.range count, weight (Function.update family index new other)) +
        weight (family index) =
      (∑ other ∈ Finset.range count, weight (family other)) + weight new := by
  have hmem : index ∈ Finset.range count := Finset.mem_range.mpr hindex
  have hrest : ∑ other ∈ (Finset.range count).erase index,
      weight (Function.update family index new other) =
        ∑ other ∈ (Finset.range count).erase index, weight (family other) := by
    refine Finset.sum_congr rfl fun other hother ↦ ?_
    rw [Function.update_of_ne (Finset.ne_of_mem_erase hother)]
  rw [← Finset.add_sum_erase _ _ hmem, ← Finset.add_sum_erase _ _ hmem, hrest,
    Function.update_self]
  omega

/-! ### Bounded runs -/

namespace TransitionSystem

variable {State Label : Type*} (system : TransitionSystem State Label)

/-- None of the allowed steps is enabled. -/
def Stuck (allowed : Label → Prop) (state : State) : Prop :=
  ∀ label, allowed label → system.step state label = none

variable {system} {allowed : Label → Prop} {state final : State} {labels : List Label}

/-- In a run of allowed steps, those that are counted are at most as many as the measure falls and
those that may raise it, times a cost, when a counted step lowers the measure, a raising one raises
it by the cost at most, and no other raises it. -/
theorem countP_add_measure_le (counted raising : Label → Bool) (cost : ℕ) (measure : State → ℕ)
    (inv : State → Prop)
    (hmeasure : ∀ state label next, inv state → allowed label →
      system.step state label = some next →
        inv next ∧
          measure next + (counted label).toNat ≤ measure state + cost * (raising label).toNat)
    (hallowed : ∀ label ∈ labels, allowed label) (hstate : inv state)
    (hrun : system.run state labels = some final) :
    labels.countP counted + measure final ≤ measure state + cost * labels.countP raising := by
  induction labels generalizing state with
  | nil =>
    obtain rfl : state = final := Option.some.inj hrun
    simp
  | cons label rest ih =>
    obtain ⟨hlabel, hrest⟩ := List.forall_mem_cons.mp hallowed
    rw [run_cons, Option.bind_eq_some_iff] at hrun
    obtain ⟨next, hstep, hrun⟩ := hrun
    obtain ⟨hnext, hle⟩ := hmeasure state label next hstate hlabel hstep
    have htail := ih hrest hnext hrun
    have hcounted : (label :: rest).countP counted =
        rest.countP counted + (counted label).toNat := by
      rw [List.countP_cons]
      cases counted label <;> rfl
    have hraising : (label :: rest).countP raising =
        rest.countP raising + (raising label).toNat := by
      rw [List.countP_cons]
      cases raising label <;> rfl
    rw [hraising, Nat.mul_add]
    omega

/-- A run of allowed steps has at most as many steps as the measure falls, when each of them keeps
an invariant and lowers the measure. -/
theorem length_add_measure_le (measure : State → ℕ) (inv : State → Prop)
    (hlower : ∀ state label next, inv state → allowed label →
      system.step state label = some next → inv next ∧ measure next < measure state)
    (hallowed : ∀ label ∈ labels, allowed label) (hstate : inv state)
    (hrun : system.run state labels = some final) :
    labels.length + measure final ≤ measure state := by
  have hcount := countP_add_measure_le (fun _ ↦ true) (fun _ ↦ false) 0 measure inv
    (fun before label after hbefore hlabel hstep ↦ hlower before label after hbefore hlabel hstep)
    hallowed hstate hrun
  simpa using hcount

/-- What is not stuck has an allowed step. -/
theorem exists_step_of_not_stuck (hstuck : ¬ system.Stuck allowed state) :
    ∃ label next, allowed label ∧ system.step state label = some next := by
  simp only [Stuck, not_forall] at hstuck
  obtain ⟨label, hlabel, hstep⟩ := hstuck
  obtain ⟨next, hnext⟩ := Option.ne_none_iff_exists'.mp hstep
  exact ⟨label, next, hlabel, hnext⟩

/-- Some run of allowed steps ends in a stuck state, when each of them keeps an invariant and lowers
a measure. -/
theorem exists_run_stuck (measure : State → ℕ) (inv : State → Prop)
    (hlower : ∀ state label next, inv state → allowed label →
      system.step state label = some next → inv next ∧ measure next < measure state)
    (hstate : inv state) :
    ∃ labels final, (∀ label ∈ labels, allowed label) ∧
      system.run state labels = some final ∧ system.Stuck allowed final := by
  refine exists_run_of_progress measure inv _ (fun current hcurrent hstuck ↦ ?_) hstate
  obtain ⟨label, next, hlabel, hstep⟩ := exists_step_of_not_stuck hstuck
  exact ⟨label, next, hlabel, hstep, hlower current label next hcurrent hlabel hstep⟩

end TransitionSystem

end Reactor.Library
