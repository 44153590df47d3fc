import Mathlib.Order.Lattice
import Mathlib.Data.List.Pairwise

/-!
# Ordered maps

A finite map with ordered keys, as the list of its entries in increasing order of their keys; the
order is a field of the structure. `get?` looks a key up, `insert` puts a value under a key, `erase`
drops a key. `first?` and `next?` are what an iteration over the map uses: the least key, and the
least key above a given one.

`get?_insert` and `get?_erase` are the two laws of lookup; `isSome_of_first?`, `isSome_of_next?` and
`lt_of_next?` say that an iteration visits keys of the map, in increasing order.

An iteration that is at an entry splits the entries into those before it and those from it on
(`ahead`, which is what gets shorter). `get?_of_split`, `next?_of_split` and `erase_of_split` are what
the three operations do in terms of such a split, so that a loop that erases some entries on its way
is followed by induction on the entries it has not reached.
-/

set_option autoImplicit false
set_option relaxedAutoImplicit false

namespace Reactor.Library

/-- A finite map, as its entries in increasing order of their keys. -/
structure OrderedMap (Key Value : Type*) [LinearOrder Key] where
  entries : List (Key × Value)
  sorted : entries.Pairwise fun first second ↦ first.1 < second.1

namespace OrderedMap

variable {Key Value : Type*} [LinearOrder Key]

def empty : OrderedMap Key Value := ⟨[], List.Pairwise.nil⟩

/-- The value under a key. -/
def get? (map : OrderedMap Key Value) (key : Key) : Option Value :=
  (map.entries.find? fun entry ↦ entry.1 = key).map Prod.snd

/-- The map without a key. -/
def erase (map : OrderedMap Key Value) (key : Key) : OrderedMap Key Value where
  entries := map.entries.filter fun entry ↦ entry.1 ≠ key
  sorted := map.sorted.filter _

/-- The map with a value under a key. -/
def insert (map : OrderedMap Key Value) (key : Key) (value : Value) : OrderedMap Key Value where
  entries := (map.entries.filter fun entry ↦ entry.1 < key) ++
    (key, value) :: map.entries.filter fun entry ↦ key < entry.1
  sorted := by
    refine List.pairwise_append.mpr ⟨map.sorted.filter _, ?_, ?_⟩
    · refine List.pairwise_cons.mpr ⟨fun entry hentry ↦ ?_, map.sorted.filter _⟩
      exact of_decide_eq_true (List.mem_filter.mp hentry).2
    · intro lower hlower upper hupper
      have hbelow : lower.1 < key := of_decide_eq_true (List.mem_filter.mp hlower).2
      rcases List.mem_cons.mp hupper with rfl | hrest
      · exact hbelow
      · have habove : key < upper.1 := of_decide_eq_true (List.mem_filter.mp hrest).2
        exact hbelow.trans habove

/-- The least key. -/
def first? (map : OrderedMap Key Value) : Option Key := map.entries.head?.map Prod.fst

/-- The least key above a given one. -/
def next? (map : OrderedMap Key Value) (key : Key) : Option Key :=
  (map.entries.find? fun entry ↦ key < entry.1).map Prod.fst

variable (map : OrderedMap Key Value)

/-- Looking for a key among entries selected by their keys. -/
theorem find?_filter_key (entries : List (Key × Value)) (select : Key → Bool) (key : Key) :
    (entries.filter fun entry ↦ select entry.1).find? (fun entry ↦ entry.1 = key) =
      if select key then entries.find? (fun entry ↦ entry.1 = key) else none := by
  rw [List.find?_filter]
  split_ifs with hselect
  · congr 1
    funext entry
    by_cases hentry : entry.1 = key
    · simp [hentry, hselect]
    · simp [hentry]
  · refine List.find?_eq_none.mpr fun entry _ ↦ ?_
    by_cases hentry : entry.1 = key
    · simp [hentry, hselect]
    · simp [hentry]

/-- Erasing a key changes what is under that key only. -/
theorem get?_erase (erased key : Key) :
    (map.erase erased).get? key = if key = erased then none else map.get? key := by
  have hfind := find?_filter_key map.entries (fun candidate ↦ decide (candidate ≠ erased)) key
  rw [get?, erase, hfind]
  by_cases hkey : key = erased
  · simp [hkey]
  · simp [hkey, get?]

theorem get?_erase_self (key : Key) : (map.erase key).get? key = none := by
  rw [get?_erase, if_pos rfl]

theorem get?_erase_of_ne {erased key : Key} (hne : key ≠ erased) :
    (map.erase erased).get? key = map.get? key := by
  rw [get?_erase, if_neg hne]

/-- Inserting a value changes what is under its key only. -/
theorem get?_insert (inserted : Key) (value : Value) (key : Key) :
    (map.insert inserted value).get? key = if key = inserted then some value else map.get? key := by
  have hlower := find?_filter_key map.entries (fun candidate ↦ decide (candidate < inserted)) key
  have hupper := find?_filter_key map.entries (fun candidate ↦ decide (inserted < candidate)) key
  rw [get?, insert]
  simp only [List.find?_append, hlower, List.find?_cons, hupper]
  rcases lt_trichotomy key inserted with hlt | rfl | hgt
  · simp [hlt, hlt.ne, hlt.ne', hlt.not_gt, get?]
  · simp
  · simp [hgt, hgt.ne, hgt.ne', hgt.not_gt, get?]

theorem get?_insert_self (key : Key) (value : Value) :
    (map.insert key value).get? key = some value := by
  rw [get?_insert, if_pos rfl]

theorem get?_insert_of_ne {inserted key : Key} (hne : key ≠ inserted) (value : Value) :
    (map.insert inserted value).get? key = map.get? key := by
  rw [get?_insert, if_neg hne]

/-- A key of some entry is in the map. -/
theorem isSome_of_mem {entry : Key × Value} (hentry : entry ∈ map.entries) :
    (map.get? entry.1).isSome = true := by
  rw [get?, Option.isSome_map, List.find?_isSome]
  exact ⟨entry, hentry, decide_eq_true rfl⟩

/-- An iteration starts at a key of the map. -/
theorem isSome_of_first? {key : Key} (hfirst : map.first? = some key) :
    (map.get? key).isSome = true := by
  rw [first?, Option.map_eq_some_iff] at hfirst
  obtain ⟨entry, hentry, rfl⟩ := hfirst
  exact map.isSome_of_mem (List.mem_of_mem_head? hentry)

/-- An iteration goes on to a key of the map. -/
theorem isSome_of_next? {key next : Key} (hnext : map.next? key = some next) :
    (map.get? next).isSome = true := by
  rw [next?, Option.map_eq_some_iff] at hnext
  obtain ⟨entry, hentry, rfl⟩ := hnext
  exact map.isSome_of_mem (List.mem_of_find?_eq_some hentry)

/-- An iteration goes on above the key it was at. -/
theorem lt_of_next? {key next : Key} (hnext : map.next? key = some next) : key < next := by
  rw [next?, Option.map_eq_some_iff] at hnext
  obtain ⟨entry, hentry, rfl⟩ := hnext
  have habove := List.find?_some hentry
  exact of_decide_eq_true habove

/-! ### Iterations -/

/-- The entries from the one an iteration is at on. -/
def ahead (map : OrderedMap Key Value) : Option Key → List (Key × Value)
  | none => []
  | some key => map.entries.filter fun entry ↦ key ≤ entry.1

section Split

variable {map} {before after : List (Key × Value)} {key : Key} {value : Value}

theorem lt_of_split (hsplit : map.entries = before ++ (key, value) :: after) :
    (∀ entry ∈ before, entry.1 < key) ∧ ∀ entry ∈ after, key < entry.1 := by
  have hsorted := map.sorted
  rw [hsplit, List.pairwise_append, List.pairwise_cons] at hsorted
  obtain ⟨-, ⟨hafter, -⟩, hbefore⟩ := hsorted
  exact ⟨fun entry hentry ↦ hbefore entry hentry _ List.mem_cons_self, hafter⟩

/-- A key of the map splits its entries. -/
theorem exists_split_of_get? (hget : map.get? key = some value) :
    ∃ before after, map.entries = before ++ (key, value) :: after := by
  rw [get?, Option.map_eq_some_iff] at hget
  obtain ⟨entry, hfind, rfl⟩ := hget
  have hkey := List.find?_some hfind
  obtain rfl : entry.1 = key := of_decide_eq_true hkey
  exact List.append_of_mem (List.mem_of_find?_eq_some hfind)

theorem get?_of_split (hsplit : map.entries = before ++ (key, value) :: after) :
    map.get? key = some value := by
  have hbefore : before.find? (fun entry ↦ entry.1 = key) = none :=
    List.find?_eq_none.mpr fun entry hentry ↦ by
      simpa using ((lt_of_split hsplit).1 entry hentry).ne
  rw [get?, hsplit, List.find?_append, hbefore, Option.none_or]
  simp

theorem get?_of_mem {entry : Key × Value} (hentry : entry ∈ map.entries) :
    map.get? entry.1 = some entry.2 := by
  obtain ⟨before, after, hsplit⟩ := List.append_of_mem hentry
  exact get?_of_split hsplit

/-- The iteration goes on to the first entry behind the one it is at. -/
theorem next?_of_split (hsplit : map.entries = before ++ (key, value) :: after) :
    map.next? key = after.head?.map Prod.fst := by
  obtain ⟨hbefore, hafter⟩ := lt_of_split hsplit
  have hnone : before.find? (fun entry ↦ key < entry.1) = none :=
    List.find?_eq_none.mpr fun entry hentry ↦ by
      simpa using (hbefore entry hentry).le
  rw [next?, hsplit, List.find?_append, hnone, Option.none_or]
  cases after with
  | nil => simp
  | cons entry rest => simp [hafter entry List.mem_cons_self]

/-- Erasing the entry the iteration is at joins the two parts. -/
theorem erase_of_split (hsplit : map.entries = before ++ (key, value) :: after) :
    (map.erase key).entries = before ++ after := by
  obtain ⟨hbefore, hafter⟩ := lt_of_split hsplit
  have hkeep : ∀ part : List (Key × Value), (∀ entry ∈ part, entry.1 ≠ key) →
      part.filter (fun entry ↦ entry.1 ≠ key) = part := fun part hpart ↦
    List.filter_eq_self.mpr fun entry hentry ↦ decide_eq_true (hpart entry hentry)
  change map.entries.filter (fun entry ↦ entry.1 ≠ key) = before ++ after
  rw [hsplit, List.filter_append, List.filter_cons_of_neg (by simp),
    hkeep before fun entry hentry ↦ (hbefore entry hentry).ne,
    hkeep after fun entry hentry ↦ (hafter entry hentry).ne']

/-- An iteration at the first entry of the second part has that part ahead. -/
theorem ahead_of_split (hsplit : map.entries = before ++ after) :
    map.ahead (after.head?.map Prod.fst) = after := by
  cases after with
  | nil => rfl
  | cons entry rest =>
    obtain ⟨hbefore, hafter⟩ := lt_of_split hsplit
    have hnone : before.filter (fun other ↦ entry.1 ≤ other.1) = [] :=
      List.filter_eq_nil_iff.mpr fun other hother ↦ by simpa using hbefore other hother
    have hrest : rest.filter (fun other ↦ entry.1 ≤ other.1) = rest :=
      List.filter_eq_self.mpr fun other hother ↦ decide_eq_true (hafter other hother).le
    change map.entries.filter (fun other ↦ entry.1 ≤ other.1) = entry :: rest
    rw [hsplit, List.filter_append, hnone, List.nil_append, List.filter_cons_of_pos (by simp), hrest]

end Split

/-- No key has two entries. -/
theorem nodup_keys : (map.entries.map Prod.fst).Nodup :=
  List.pairwise_map.mpr (map.sorted.imp fun hlt ↦ hlt.ne)

/-- Going on leaves less ahead. -/
theorem length_ahead_next?_lt {key : Key} {value : Value} (hget : map.get? key = some value) :
    (map.ahead (map.next? key)).length < (map.ahead (some key)).length := by
  obtain ⟨before, after, hsplit⟩ := exists_split_of_get? hget
  have hhere : map.ahead (some key) = (key, value) :: after := ahead_of_split hsplit
  have hnext : map.entries = (before ++ [(key, value)]) ++ after := by
    rw [hsplit, List.append_assoc, List.singleton_append]
  rw [next?_of_split hsplit, ahead_of_split hnext, hhere, List.length_cons]
  exact Nat.lt_succ_self _

/-- Erasing the entry the iteration is at and going on leaves less ahead. -/
theorem length_ahead_erase_lt {key : Key} {value : Value} (hget : map.get? key = some value) :
    ((map.erase key).ahead (map.next? key)).length < (map.ahead (some key)).length := by
  obtain ⟨before, after, hsplit⟩ := exists_split_of_get? hget
  have hhere : map.ahead (some key) = (key, value) :: after := ahead_of_split hsplit
  rw [next?_of_split hsplit, ahead_of_split (erase_of_split hsplit), hhere, List.length_cons]
  exact Nat.lt_succ_self _

end OrderedMap

end Reactor.Library
