import Mathlib.Data.List.Basic
import Mathlib.Data.List.Induction
import Mathlib.Data.List.Perm.Basic
import Mathlib.Tactic.Common

/-!
# Pipelines with an unordered middle

Items are issued one after the other and wait in a queue. From its front they are taken up to be
worked on, several at a time and finished in any order; what is finished waits in a second queue,
from whose front it is delivered. `Pipeline` is such a state, with all items ever issued, and `Move`
one step of it, in which the items being worked on form a multiset, and only an item of a given set
may be finished. An item may also be delivered in the step that issues it, while nothing else is on
its way (`Move.bypass`).

`Conserved` says that no item is lost or duplicated, and every move keeps it. `Ordered` says
moreover that only the items being worked on are out of order. For items with ranks that increase in
the order of issue, it is kept by every move that finishes no item while one of smaller rank is
being worked on (`Ordered.move`), and then the delivered items are the first of those issued.

`Overtaking` is about pipelines in which any item may be finished, while at most `width` are being
worked on at a time (`Overtaking.move`): the item delivered at an index is one of the first
`index + width` issued.
-/

set_option autoImplicit false
set_option relaxedAutoImplicit false

namespace Reactor.Library

/-- The items issued so far, and where each of them is. -/
structure Pipeline (Item : Type*) where
  issued : List Item
  waiting : List Item
  working : List Item
  ready : List Item
  delivered : List Item

namespace Pipeline

variable {Item : Type*}

/-- One step of a pipeline in which only some items may be finished. -/
inductive Move (mayFinish : Item → Prop) (before after : Pipeline Item) : Prop
  | shuffle (hissued : after.issued = before.issued) (hwaiting : after.waiting = before.waiting)
      (hworking : before.working.Perm after.working) (hready : after.ready = before.ready)
      (hdelivered : after.delivered = before.delivered)
  | issue (item : Item) (hissued : after.issued = before.issued ++ [item])
      (hwaiting : after.waiting = before.waiting ++ [item])
      (hworking : after.working = before.working) (hready : after.ready = before.ready)
      (hdelivered : after.delivered = before.delivered)
  | start (item : Item) (hissued : after.issued = before.issued)
      (hwaiting : before.waiting = item :: after.waiting)
      (hworking : after.working.Perm (item :: before.working)) (hready : after.ready = before.ready)
      (hdelivered : after.delivered = before.delivered)
  | finish (item : Item) (hmay : mayFinish item) (hissued : after.issued = before.issued)
      (hwaiting : after.waiting = before.waiting)
      (hworking : before.working.Perm (item :: after.working))
      (hready : after.ready = before.ready ++ [item])
      (hdelivered : after.delivered = before.delivered)
  | deliver (item : Item) (hissued : after.issued = before.issued)
      (hwaiting : after.waiting = before.waiting) (hworking : after.working = before.working)
      (hready : before.ready = item :: after.ready)
      (hdelivered : after.delivered = before.delivered ++ [item])
  | bypass (item : Item) (hissued : after.issued = before.issued ++ [item])
      (hwaiting : before.waiting = [] ∧ after.waiting = [])
      (hworking : before.working = [] ∧ after.working = [])
      (hready : before.ready = [] ∧ after.ready = [])
      (hdelivered : after.delivered = before.delivered ++ [item])

/-- A pipeline that does not change makes a move. -/
theorem Move.of_eq {mayFinish : Item → Prop} {before after : Pipeline Item}
    (heq : after = before) : Move mayFinish before after := by
  subst heq
  exact .shuffle rfl rfl (List.Perm.refl _) rfl rfl

/-! ### Conservation -/

/-- Every item issued is at exactly one place. -/
def Conserved (pipeline : Pipeline Item) : Prop :=
  (pipeline.delivered ++ pipeline.ready ++ pipeline.working ++ pipeline.waiting).Perm
    pipeline.issued

/-- A move loses and duplicates no item. -/
theorem Conserved.move {mayFinish : Item → Prop} {before after : Pipeline Item}
    (hconserved : before.Conserved) (hmove : Move mayFinish before after) : after.Conserved := by
  unfold Conserved at hconserved ⊢
  cases hmove with
  | shuffle hissued hwaiting hworking hready hdelivered =>
    rw [hissued, hwaiting, hready, hdelivered]
    exact ((hworking.symm.append_left _).append_right _).trans hconserved
  | issue item hissued hwaiting hworking hready hdelivered =>
    rw [hissued, hwaiting, hworking, hready, hdelivered, ← List.append_assoc]
    exact hconserved.append_right [item]
  | start item hissued hwaiting hworking hready hdelivered =>
    rw [hissued, hready, hdelivered]
    rw [hwaiting] at hconserved
    refine ((hworking.append_left _).append_right _).trans (List.Perm.trans ?_ hconserved)
    simp only [List.append_assoc, List.cons_append]
    exact ((List.perm_middle.symm).append_left _).append_left _
  | finish item hmay hissued hwaiting hworking hready hdelivered =>
    rw [hissued, hwaiting, hready, hdelivered]
    refine List.Perm.trans ?_ hconserved
    simp only [List.append_assoc, List.cons_append, List.nil_append]
    exact ((hworking.symm.append_right _).append_left _).append_left _
  | deliver item hissued hwaiting hworking hready hdelivered =>
    rw [hready] at hconserved
    rw [hissued, hwaiting, hworking, hdelivered]
    simpa only [List.append_assoc, List.cons_append, List.nil_append] using hconserved
  | bypass item hissued hwaiting hworking hready hdelivered =>
    rw [hwaiting.1, hworking.1, hready.1] at hconserved
    rw [hissued, hwaiting.2, hworking.2, hready.2, hdelivered]
    simp only [List.append_nil] at hconserved ⊢
    exact hconserved.append_right [item]

/-- With nothing on its way every item issued has been delivered. -/
theorem Conserved.delivered_perm {pipeline : Pipeline Item} (hconserved : pipeline.Conserved)
    (hwaiting : pipeline.waiting = []) (hworking : pipeline.working = [])
    (hready : pipeline.ready = []) : pipeline.delivered.Perm pipeline.issued := by
  simpa [Conserved, hwaiting, hworking, hready] using hconserved

/-- Items issued at most once are delivered at most once. -/
theorem Conserved.delivered_nodup {pipeline : Pipeline Item} (hconserved : pipeline.Conserved)
    (hissued : pipeline.issued.Nodup) : pipeline.delivered.Nodup := by
  have hall := hconserved.nodup_iff.mpr hissued
  simp only [List.append_assoc] at hall
  exact (List.nodup_append.mp hall).1

/-- Only issued items are delivered. -/
theorem Conserved.delivered_subset {pipeline : Pipeline Item} (hconserved : pipeline.Conserved) :
    pipeline.delivered ⊆ pipeline.issued := by
  intro item hitem
  refine hconserved.subset ?_
  simp only [List.append_assoc]
  exact List.mem_append_left _ hitem

/-! ### Order -/

/-- The items issued, in order, are those delivered, those ready, those being worked on in some
order, and those waiting. -/
def Ordered (pipeline : Pipeline Item) : Prop :=
  ∃ inOrder, inOrder.Perm pipeline.working ∧
    pipeline.delivered ++ pipeline.ready ++ inOrder ++ pipeline.waiting = pipeline.issued

/-- Moves that finish the items in the order of their ranks, which increase in the order of issue,
keep the order. -/
theorem Ordered.move {rank : Item → ℕ} {mayFinish : Item → Prop} {before after : Pipeline Item}
    (hordered : before.Ordered)
    (hrank : before.issued.Pairwise fun first second ↦ rank first < rank second)
    (hturn : ∀ item, mayFinish item → ∀ other ∈ before.working, ¬ rank other < rank item)
    (hmove : Move mayFinish before after) : after.Ordered := by
  obtain ⟨inOrder, hperm, horder⟩ := hordered
  cases hmove with
  | shuffle hissued hwaiting hworking hready hdelivered =>
    refine ⟨inOrder, hperm.trans hworking, ?_⟩
    rw [hissued, hwaiting, hready, hdelivered, horder]
  | issue item hissued hwaiting hworking hready hdelivered =>
    refine ⟨inOrder, hworking ▸ hperm, ?_⟩
    rw [hissued, hwaiting, hready, hdelivered, ← List.append_assoc, horder]
  | start item hissued hwaiting hworking hready hdelivered =>
    have happended : (inOrder ++ [item]).Perm after.working :=
      (List.perm_append_singleton item inOrder).trans ((hperm.cons item).trans hworking.symm)
    refine ⟨inOrder ++ [item], happended, ?_⟩
    rw [hissued, hready, hdelivered, ← horder, hwaiting]
    simp
  | finish item hmay hissued hwaiting hworking hready hdelivered =>
    have hmem : item ∈ inOrder := hperm.mem_iff.mpr (hworking.mem_iff.mpr List.mem_cons_self)
    cases inOrder with
    | nil => exact absurd hmem List.not_mem_nil
    | cons first rest =>
      have hfirst : first = item := by
        by_contra hne
        have hrest : item ∈ rest := by
          rcases List.mem_cons.mp hmem with heq | hrest
          · exact absurd heq.symm hne
          · exact hrest
        have hsublist : (first :: rest).Sublist before.issued := by
          rw [← horder]
          exact (List.sublist_append_right _ _).trans (List.sublist_append_left _ _)
        have hlt : rank first < rank item :=
          (List.pairwise_cons.mp (hrank.sublist hsublist)).1 item hrest
        exact hturn item hmay first (hperm.mem_iff.mp List.mem_cons_self) hlt
      subst hfirst
      refine ⟨rest, (hperm.trans hworking).cons_inv, ?_⟩
      rw [hissued, hwaiting, hready, hdelivered, ← horder]
      simp
  | deliver item hissued hwaiting hworking hready hdelivered =>
    refine ⟨inOrder, hworking ▸ hperm, ?_⟩
    rw [hissued, hwaiting, hdelivered, ← horder, hready]
    simp
  | bypass item hissued hwaiting hworking hready hdelivered =>
    rw [hworking.1] at hperm
    obtain rfl : inOrder = [] := hperm.eq_nil
    refine ⟨[], hworking.2 ▸ List.Perm.refl [], ?_⟩
    rw [hwaiting.1, hready.1] at horder
    rw [hissued, hwaiting.2, hready.2, hdelivered, ← horder]
    simp

/-- In a pipeline in order the delivered items are the first ones issued. -/
theorem Ordered.delivered_take {pipeline : Pipeline Item} (hordered : pipeline.Ordered) :
    pipeline.delivered = pipeline.issued.take pipeline.delivered.length := by
  obtain ⟨inOrder, -, hissued⟩ := hordered
  rw [← hissued]
  simp

/-! ### Overtaking -/

/-- Each item of a list is among the first of another one, up to its position and `width` more: it
came before fewer than `width` items that are earlier there. -/
def Near (width : ℕ) (finished issued : List Item) : Prop :=
  ∀ index item, finished[index]? = some item → item ∈ issued.take (index + width)

theorem Near.mono {width : ℕ} {finished issued longer : List Item}
    (hnear : Near width finished issued) (hfront : issued <+: longer) :
    Near width finished longer := by
  obtain ⟨more, rfl⟩ := hfront
  intro index item hitem
  rw [List.take_append]
  exact List.mem_append_left _ (hnear index item hitem)

theorem Near.concat {width : ℕ} {finished issued : List Item} {item : Item}
    (hnear : Near width finished issued) (hitem : item ∈ issued.take (finished.length + width)) :
    Near width (finished ++ [item]) issued := by
  intro index other hother
  rcases Nat.lt_trichotomy index finished.length with hlt | rfl | hgt
  · rw [List.getElem?_append_left hlt] at hother
    exact hnear index other hother
  · rw [List.getElem?_concat_length] at hother
    cases hother
    exact hitem
  · rw [List.getElem?_eq_none (by simp; omega)] at hother
    cases hother

theorem Near.of_append {width : ℕ} {finished more issued : List Item}
    (hnear : Near width (finished ++ more) issued) : Near width finished issued := by
  intro index item hitem
  refine hnear index item ?_
  rw [List.getElem?_append_left (List.getElem?_eq_some_iff.mp hitem).1]
  exact hitem

/-- When none overtook another one, the order is the same. -/
theorem Near.eq_take {finished issued : List Item} (hnear : Near 1 finished issued)
    (hnodup : finished.Nodup) : finished = issued.take finished.length := by
  induction finished using List.reverseRecOn with
  | nil => rfl
  | append_singleton front last ih =>
    obtain ⟨hfront, -, hdisjoint⟩ := List.nodup_append.mp hnodup
    have htake := ih hnear.of_append hfront
    have hlast := hnear front.length last List.getElem?_concat_length
    rw [List.take_add_one, ← htake, List.mem_append, Option.mem_toList] at hlast
    have hissued : issued[front.length]? = some last := by
      refine hlast.resolve_left fun hmem ↦ ?_
      exact hdisjoint last hmem last List.mem_cons_self rfl
    rw [List.length_append, List.length_singleton, List.take_add_one, ← htake, hissued]
    rfl

/-- The items started are the first ones issued, and of those finished each overtook fewer than
`width` others. -/
structure Overtaking (width : ℕ) (pipeline : Pipeline Item) : Prop where
  started : ∃ started, started.Perm (pipeline.delivered ++ pipeline.ready ++ pipeline.working) ∧
    started ++ pipeline.waiting = pipeline.issued
  near : Near width (pipeline.delivered ++ pipeline.ready) pipeline.issued

/-- With at most `width` items being worked on at a time none overtakes more. -/
theorem Overtaking.move {width : ℕ} {mayFinish : Item → Prop} {before after : Pipeline Item}
    (hovertaking : before.Overtaking width) (hwidth : 0 < width)
    (hworking : before.working.length ≤ width) (hmove : Move mayFinish before after) :
    after.Overtaking width := by
  obtain ⟨⟨started, hperm, hstarted⟩, hnear⟩ := hovertaking
  cases hmove with
  | shuffle hissued hwaiting hshuffle hready hdelivered =>
    refine ⟨⟨started, ?_, ?_⟩, ?_⟩
    · rw [hready, hdelivered]
      exact hperm.trans (hshuffle.append_left _)
    · rw [hissued, hwaiting, hstarted]
    · rwa [hissued, hready, hdelivered]
  | issue item hissued hwaiting hsame hready hdelivered =>
    refine ⟨⟨started, ?_, ?_⟩, ?_⟩
    · rwa [hsame, hready, hdelivered]
    · rw [hissued, hwaiting, ← List.append_assoc, hstarted]
    · rw [hissued, hready, hdelivered]
      exact hnear.mono (List.prefix_append _ _)
  | start item hissued hwaiting hstart hready hdelivered =>
    refine ⟨⟨started ++ [item], ?_, ?_⟩, ?_⟩
    · rw [hready, hdelivered]
      refine (hperm.append_right [item]).trans ?_
      rw [List.append_assoc]
      exact ((List.perm_append_singleton item _).trans hstart.symm).append_left _
    · rw [hissued, ← hstarted, hwaiting, List.append_assoc, List.singleton_append]
    · rwa [hissued, hready, hdelivered]
  | finish item hmay hissued hwaiting hfinish hready hdelivered =>
    refine ⟨⟨started, ?_, ?_⟩, ?_⟩
    · rw [hready, hdelivered]
      refine hperm.trans ?_
      simp only [List.append_assoc, List.singleton_append]
      exact (hfinish.append_left _).append_left _
    · rw [hissued, hwaiting, hstarted]
    · rw [hissued, hready, hdelivered, ← List.append_assoc]
      refine hnear.concat ?_
      -- It is among the items started, all of which are finished or being worked on.
      have hmem : item ∈ started :=
        hperm.mem_iff.mpr (List.mem_append_right _ (hfinish.mem_iff.mpr List.mem_cons_self))
      have hlength := hperm.length_eq
      rw [List.length_append] at hlength
      rw [← hstarted, List.take_append, List.take_of_length_le (by omega)]
      exact List.mem_append_left _ hmem
  | deliver item hissued hwaiting hsame hready hdelivered =>
    have hfinished : after.delivered ++ after.ready = before.delivered ++ before.ready := by
      rw [hdelivered, hready, List.append_assoc, List.singleton_append]
    refine ⟨⟨started, ?_, ?_⟩, ?_⟩
    · rwa [hfinished, hsame]
    · rw [hissued, hwaiting, hstarted]
    · rwa [hissued, hfinished]
  | bypass item hissued hwaiting hnone hready hdelivered =>
    rw [hready.1, hnone.1, List.append_nil, List.append_nil] at hperm
    rw [hwaiting.1, List.append_nil] at hstarted
    rw [hready.1, List.append_nil] at hnear
    refine ⟨⟨started ++ [item], ?_, ?_⟩, ?_⟩
    · rw [hready.2, hnone.2, hdelivered, List.append_nil, List.append_nil]
      exact hperm.append_right _
    · rw [hissued, hwaiting.2, List.append_nil, hstarted]
    · rw [hready.2, hdelivered, hissued, List.append_nil]
      refine (hnear.mono (List.prefix_append _ _)).concat ?_
      have hlength := hperm.length_eq
      rw [hstarted] at hlength
      rw [List.take_of_length_le (by simp; omega)]
      exact List.mem_append_right _ List.mem_cons_self

end Pipeline

end Reactor.Library
