import Mathlib.Data.List.Basic

/-!
# Incremental parsing of a stream

A parser of a stream (`StreamParser`) reads one item off the front of a list of symbols, or finds
none yet. Two laws make it usable on a stream that arrives in pieces: an item takes at least one
symbol (`shorter`), and an item found in a list is found in every extension of the list, with the
extension left over behind it (`extend`).

`items` and `remainder` are the greedy parse of a whole list. `items_append` and
`remainder_append` are the incremental law: parsing a prefix first, and later its remainder
followed by the rest, gives the same items and the same remainder as one parse of everything.

An encoder is right for a parser when the parser reads back the encoding of an item, whatever
follows (`Encodes`). `items_encodeAll_append` then parses a concatenation of encodings, and
`length_le_length_items` says that a list with the encodings of some items in front has at least
that many items.
-/

set_option autoImplicit false
set_option relaxedAutoImplicit false

namespace Reactor.Library

/-- A parser of one item off the front of a stream of symbols. -/
structure StreamParser (Symbol Item : Type*) where
  /-- The first item and what follows it, or `none` when no complete item is in front. -/
  next : List Symbol → Option (Item × List Symbol)
  shorter : ∀ {input rest : List Symbol} {item : Item},
    next input = some (item, rest) → rest.length < input.length
  extend : ∀ {input rest : List Symbol} {item : Item} (more : List Symbol),
    next input = some (item, rest) → next (input ++ more) = some (item, rest ++ more)

namespace StreamParser

variable {Symbol Item : Type*} (parser : StreamParser Symbol Item)

/-- The greedy parse of a list: the items read off its front until none is found, and the symbols
left over. -/
def parse (input : List Symbol) : List Item × List Symbol :=
  match _ : parser.next input with
  | none => ([], input)
  | some (item, rest) => (item :: (parse rest).1, (parse rest).2)
termination_by input.length
decreasing_by all_goals exact parser.shorter ‹_›

/-- The items of the greedy parse. -/
def items (input : List Symbol) : List Item := (parser.parse input).1

/-- The symbols the greedy parse leaves over. -/
def remainder (input : List Symbol) : List Symbol := (parser.parse input).2

variable {parser}

theorem items_of_none {input : List Symbol} (hnext : parser.next input = none) :
    parser.items input = [] := by
  rw [items, parse]
  split
  · rfl
  · rename_i item rest hsome
    rw [hnext] at hsome
    cases hsome

theorem remainder_of_none {input : List Symbol} (hnext : parser.next input = none) :
    parser.remainder input = input := by
  rw [remainder, parse]
  split
  · rfl
  · rename_i item rest hsome
    rw [hnext] at hsome
    cases hsome

theorem items_of_some {input rest : List Symbol} {item : Item}
    (hnext : parser.next input = some (item, rest)) :
    parser.items input = item :: parser.items rest := by
  rw [items, parse]
  split
  · rename_i hnone
    rw [hnext] at hnone
    cases hnone
  · rename_i other left hsome
    rw [hnext] at hsome
    cases hsome
    rfl

theorem remainder_of_some {input rest : List Symbol} {item : Item}
    (hnext : parser.next input = some (item, rest)) :
    parser.remainder input = parser.remainder rest := by
  rw [remainder, parse]
  split
  · rename_i hnone
    rw [hnext] at hnone
    cases hnone
  · rename_i other left hsome
    rw [hnext] at hsome
    cases hsome
    rfl

/-- Induction along the greedy parse: either no item is in front, or one is and the claim holds of
what follows it. -/
theorem parse_induction (parser : StreamParser Symbol Item) {motive : List Symbol → Prop}
    (hnone : ∀ input, parser.next input = none → motive input)
    (hsome : ∀ input item rest, parser.next input = some (item, rest) → motive rest →
      motive input)
    (input : List Symbol) : motive input :=
  match hnext : parser.next input with
  | none => hnone input hnext
  | some (item, rest) => hsome input item rest hnext (parse_induction parser hnone hsome rest)
termination_by input.length
decreasing_by exact parser.shorter hnext

/-- No item is in front of what the greedy parse leaves over. -/
theorem next_remainder (input : List Symbol) : parser.next (parser.remainder input) = none := by
  induction input using parse_induction parser with
  | hnone input hnext => rw [remainder_of_none hnext, hnext]
  | hsome input item rest hnext ih => rw [remainder_of_some hnext, ih]

/-- No item is found in a list exactly when its greedy parse has none. -/
theorem items_eq_nil_iff {input : List Symbol} :
    parser.items input = [] ↔ parser.next input = none := by
  constructor
  · intro hitems
    cases hnext : parser.next input with
    | none => rfl
    | some found =>
      rw [items_of_some hnext] at hitems
      cases hitems
  · exact items_of_none

/-- The incremental law for items: the items of a prefix, then those of its remainder followed by
the rest. -/
theorem items_append (input more : List Symbol) :
    parser.items (input ++ more) =
      parser.items input ++ parser.items (parser.remainder input ++ more) := by
  induction input using parse_induction parser with
  | hnone input hnext => rw [items_of_none hnext, remainder_of_none hnext, List.nil_append]
  | hsome input item rest hnext ih =>
    rw [items_of_some (parser.extend more hnext), items_of_some hnext, remainder_of_some hnext, ih,
      List.cons_append]

/-- The items of a prefix come first. -/
theorem items_prefix {input longer : List Symbol} (hfront : input <+: longer) :
    parser.items input <+: parser.items longer := by
  obtain ⟨more, rfl⟩ := hfront
  rw [items_append]
  exact List.prefix_append _ _

/-- The incremental law for the remainder. -/
theorem remainder_append (input more : List Symbol) :
    parser.remainder (input ++ more) = parser.remainder (parser.remainder input ++ more) := by
  induction input using parse_induction parser with
  | hnone input hnext => rw [remainder_of_none hnext]
  | hsome input item rest hnext ih =>
    rw [remainder_of_some (parser.extend more hnext), remainder_of_some hnext, ih]

/-! ### Reading a few items -/

/-- Reading the listed items off the front of a list, in order, leaves the given rest. -/
inductive Advances (parser : StreamParser Symbol Item) :
    List Symbol → List Item → List Symbol → Prop
  | refl (input : List Symbol) : Advances parser input [] input
  | cons {input rest final : List Symbol} {item : Item} {consumed : List Item}
      (hnext : parser.next input = some (item, rest))
      (hrest : Advances parser rest consumed final) :
      Advances parser input (item :: consumed) final

/-- What was read comes first in the greedy parse. -/
theorem Advances.items_eq {input final : List Symbol} {consumed : List Item}
    (hadvance : parser.Advances input consumed final) :
    parser.items input = consumed ++ parser.items final := by
  induction hadvance with
  | refl input => rfl
  | cons hnext _ ih => rw [items_of_some hnext, ih, List.cons_append]

/-- Reading items does not change what the greedy parse leaves over. -/
theorem Advances.remainder_eq {input final : List Symbol} {consumed : List Item}
    (hadvance : parser.Advances input consumed final) :
    parser.remainder input = parser.remainder final := by
  induction hadvance with
  | refl input => rfl
  | cons hnext _ ih => rw [remainder_of_some hnext, ih]

/-- The same items are read when more symbols follow. -/
theorem Advances.append {input final : List Symbol} {consumed : List Item}
    (hadvance : parser.Advances input consumed final) (more : List Symbol) :
    parser.Advances (input ++ more) consumed (final ++ more) := by
  induction hadvance with
  | refl input => exact .refl _
  | cons hnext _ ih => exact .cons (parser.extend more hnext) ih

/-- Reading some items and then others reads their concatenation. -/
theorem Advances.trans {input middle final : List Symbol} {first second : List Item}
    (hfirst : parser.Advances input first middle) (hsecond : parser.Advances middle second final) :
    parser.Advances input (first ++ second) final := by
  induction hfirst with
  | refl input => exact hsecond
  | cons hnext _ ih => exact .cons hnext (ih hsecond)

/-! ### Encoders -/

/-- The parser reads an item back from its encoding, whatever follows it. -/
def Encodes (parser : StreamParser Symbol Item) (encode : Item → List Symbol) (item : Item) :
    Prop :=
  ∀ more : List Symbol, parser.next (encode item ++ more) = some (item, more)

variable {encode : Item → List Symbol}

/-- The greedy parse of encodings followed by more symbols has the encoded items first. -/
theorem items_encodeAll_append {sent : List Item}
    (hsent : ∀ item ∈ sent, parser.Encodes encode item)
    (more : List Symbol) :
    parser.items (sent.flatMap encode ++ more) = sent ++ parser.items more := by
  induction sent with
  | nil => simp
  | cons item rest ih =>
    rw [List.flatMap_cons, List.append_assoc, items_of_some (hsent item List.mem_cons_self _),
      ih fun other hother ↦ hsent other (List.mem_cons_of_mem item hother), List.cons_append]

/-- The greedy parse of encodings followed by more symbols leaves over what the parse of those
symbols does. -/
theorem remainder_encodeAll_append {sent : List Item}
    (hsent : ∀ item ∈ sent, parser.Encodes encode item) (more : List Symbol) :
    parser.remainder (sent.flatMap encode ++ more) = parser.remainder more := by
  induction sent with
  | nil => simp
  | cons item rest ih =>
    rw [List.flatMap_cons, List.append_assoc, remainder_of_some (hsent item List.mem_cons_self _),
      ih fun other hother ↦ hsent other (List.mem_cons_of_mem item hother)]

/-- A list with the encodings of some items in front has at least that many items. -/
theorem length_le_length_items {sent : List Item}
    (hsent : ∀ item ∈ sent, parser.Encodes encode item) {input : List Symbol}
    (hfront : sent.flatMap encode <+: input) : sent.length ≤ (parser.items input).length := by
  obtain ⟨more, rfl⟩ := hfront
  rw [items_encodeAll_append hsent, List.length_append]
  exact Nat.le_add_right _ _

end StreamParser

end Reactor.Library
