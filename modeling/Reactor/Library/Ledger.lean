import Mathlib.Algebra.BigOperators.Group.Multiset.Basic
import Mathlib.Algebra.Order.BigOperators.Group.Multiset
import Mathlib.Algebra.Order.Group.Nat

/-!
# What is due

Items stand for amounts due under keys. `due` is what some items come to under one key. An item adds
its amount under its own key (`due_cons`), and when every item has an amount, nothing is due under a
key exactly when no item has it (`due_eq_zero_iff`).
-/

set_option autoImplicit false
set_option relaxedAutoImplicit false

namespace Reactor.Library

variable {Item Key : Type*} [DecidableEq Key] (keyOf : Item → Key) (amount : Item → ℕ)

/-- The amount of the items with a key. -/
def due (items : Multiset Item) (key : Key) : ℕ :=
  ((items.filter fun item ↦ keyOf item = key).map amount).sum

theorem due_cons (item : Item) (items : Multiset Item) (key : Key) :
    due keyOf amount (item ::ₘ items) key =
      (if keyOf item = key then amount item else 0) + due keyOf amount items key := by
  by_cases hkey : keyOf item = key <;> simp [due, hkey]

/-- Nothing is due under a key exactly when no item has it. -/
theorem due_eq_zero_iff (hamount : ∀ item, 0 < amount item) (items : Multiset Item) (key : Key) :
    due keyOf amount items key = 0 ↔ ∀ item ∈ items, keyOf item ≠ key := by
  unfold due
  rw [Multiset.sum_eq_zero_iff]
  constructor
  · intro hzero item hitem hkey
    have hnothing := hzero (amount item)
      (Multiset.mem_map_of_mem amount (Multiset.mem_filter.mpr ⟨hitem, hkey⟩))
    exact (hamount item).ne' hnothing
  · intro hnone value hvalue
    obtain ⟨item, hitem, -⟩ := Multiset.mem_map.mp hvalue
    obtain ⟨hmem, hkey⟩ := Multiset.mem_filter.mp hitem
    exact absurd hkey (hnone item hmem)

end Reactor.Library
