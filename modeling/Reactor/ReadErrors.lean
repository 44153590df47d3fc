import Reactor.MessageFraming
import Mathlib.Data.Nat.Find

/-!
# The results of `read` that end `onmessage`

The loop of `onmessage` has no bound of its own. It is left through two of its branches: `EAGAIN`
runs the drain loop and a result of zero closes (`exits`). Data and interruptions go on, and so does
every other error, for which there is no branch.

`Returns` says that a call of `onmessage` returns after finitely many results of an infinite
sequence. It does exactly when some result of the sequence exits, and the drain loop, where it is
the first such result that runs it, does not fail on a malformed header (`returns_iff`). A sequence
that brings data and interruptions only finitely often need not have such a result: the loop then
calls `read` forever, with nothing left to change (`spins`).
-/

set_option autoImplicit false
set_option relaxedAutoImplicit false

namespace Reactor.ReadErrors

open Library Buffer Connection MessageFraming

/-- A result that ends the loop: nothing more to read, or the end of the stream. -/
def exits : ReadResult → Bool
  | .data _ => false
  | .eof => true
  | .failed errno => decide (errno = EAGAIN ∨ errno = EWOULDBLOCK)

/-- The first results of a sequence. -/
def firstResults (outcomes : ℕ → ReadResult) (count : ℕ) : List ReadResult :=
  (List.range count).map outcomes

/-- Data and interruptions come only finitely often. -/
def Settles (outcomes : ℕ → ReadResult) : Prop :=
  ∃ start, ∀ index ≥ start, match outcomes index with
    | .data _ => False
    | .eof => True
    | .failed errno => errno ≠ EINTR

/-- The connection after the data among some results has been appended. -/
def appended (connection : Connection) (results : List ReadResult) : Connection :=
  { connection with inputbuffer := connection.inputbuffer.append (bytesOf results) }

/-- A call returns on one of the results: out of the drain loop when nothing more is to be read, or
having closed at the end of the stream. -/
def Returns (ambient : Ambient) (outcomes : ℕ → ReadResult) (connection : Connection) (ep : Epoll) :
    Prop :=
  ∃ last final epNext events,
    connection.onmessage ambient (firstResults outcomes (last + 1)) ep =
        .ok (.returned final epNext events) ∧
      ((∃ errno, outcomes last = .failed errno ∧ (errno = EAGAIN ∨ errno = EWOULDBLOCK)) ∧
          drain ambient 0 (appended connection (firstResults outcomes last)) =
            .ok (final, events) ∨
        outcomes last = .eof ∧ final.disconnect = true ∧ .closeClient ∈ events)

/-- The drain loop meets a malformed header before a frame with the payload `" "` stops it. -/
def FailsOn (input : Bytes) : Prop :=
  Malformed (frameParser.remainder input) ∧ noMessage ∉ frameParser.items input

instance (input : Bytes) : Decidable (FailsOn input) := inferInstanceAs (Decidable (_ ∧ _))

/-! ### The drain loop -/

/-- The drain loop returns exactly when it does not meet a malformed header. -/
theorem exists_drain_iff (ambient : Ambient) (connection : Connection) :
    (∃ final events, connection.drain ambient 0 = .ok (final, events)) ↔
      ¬ FailsOn connection.inputbuffer.buf := by
  obtain ⟨dispatched, left, hnot, hcases⟩ := drain_cases ambient 0 connection
  rcases hcases with ⟨hadvance, hdone, hformed, hok⟩ | ⟨hadvance, hok⟩ |
    ⟨hadvance, hmalformed, fault, herror⟩
  · refine iff_of_true ⟨_, _, hok⟩ fun hfails ↦ hformed ?_
    rw [← StreamParser.remainder_of_none hdone, ← hadvance.remainder_eq]
    exact hfails.1
  · refine iff_of_true ⟨_, _, hok⟩ fun hfails ↦ hfails.2 ?_
    rw [hadvance.items_eq]
    simp
  · have hnone := next_of_malformed hmalformed
    refine iff_of_false ?_ (not_not_intro ⟨?_, ?_⟩)
    · rintro ⟨final, events, hok⟩
      rw [herror] at hok
      cases hok
    · rwa [hadvance.remainder_eq, StreamParser.remainder_of_none hnone]
    · rwa [hadvance.items_eq, StreamParser.items_of_none hnone, List.append_nil]

/-! ### The read loop -/

/-- Results that do not exit only append their data. -/
theorem onmessage_append (ambient : Ambient) (results tail : List ReadResult)
    (hgoes : ∀ result ∈ results, exits result = false) (connection : Connection) (ep : Epoll) :
    connection.onmessage ambient (results ++ tail) ep =
      (appended connection results).onmessage ambient tail ep := by
  induction results generalizing connection with
  | nil => simp [appended, bytesOf]
  | cons result rest ih =>
    obtain ⟨hresult, hrest⟩ := List.forall_mem_cons.mp hgoes
    cases result with
    | data chunk =>
      rw [List.cons_append, onmessage, ih hrest]
      simp only [appended, bytesOf, Buffer.append_append]
    | eof => cases hresult
    | failed errno =>
      have hagain : ¬ (errno = EAGAIN ∨ errno = EWOULDBLOCK) := of_decide_eq_false hresult
      rw [List.cons_append, onmessage, if_neg hagain, ite_self, ih hrest]
      simp only [appended, bytesOf, if_neg hagain]

/-- Without a result that exits the loop goes on reading. -/
theorem onmessage_reading (ambient : Ambient) {outcomes : ℕ → ReadResult} {count : ℕ}
    (hgoes : ∀ earlier < count, exits (outcomes earlier) = false) (connection : Connection)
    (ep : Epoll) :
    connection.onmessage ambient (firstResults outcomes count) ep =
      .ok (.reading (appended connection (firstResults outcomes count))) := by
  have hresults : ∀ result ∈ firstResults outcomes count, exits result = false := by
    intro result hresult
    obtain ⟨index, hindex, rfl⟩ := List.mem_map.mp hresult
    exact hgoes index (List.mem_range.mp hindex)
  have happend := onmessage_append ambient (firstResults outcomes count) [] hresults connection ep
  rw [List.append_nil] at happend
  rw [happend, onmessage]

theorem firstResults_succ (outcomes : ℕ → ReadResult) (count : ℕ) :
    firstResults outcomes (count + 1) = firstResults outcomes count ++ [outcomes count] := by
  rw [firstResults, List.range_succ, List.map_append]
  rfl

/-- The results up to a given one, that one, and the ones behind it. -/
theorem exists_firstResults_eq (outcomes : ℕ → ReadResult) {index count : ℕ}
    (hindex : index < count) :
    ∃ tail, firstResults outcomes count =
      firstResults outcomes index ++ outcomes index :: tail := by
  have htake : (List.range count).take (index + 1) = List.range (index + 1) := by
    rw [List.take_range, Nat.min_eq_left hindex]
  refine ⟨((List.range count).drop (index + 1)).map outcomes, ?_⟩
  calc firstResults outcomes count
      = firstResults outcomes (index + 1) ++ ((List.range count).drop (index + 1)).map outcomes := by
        rw [firstResults, firstResults, ← List.map_append, ← htake, List.take_append_drop]
    _ = _ := by rw [firstResults_succ, List.append_assoc, List.singleton_append]

/-- A call that returned met a result that exits. -/
theorem exists_exit_of_returned {ambient : Ambient} {outcomes : ℕ → ReadResult} {count : ℕ}
    {connection final : Connection} {ep epNext : Epoll} {events : List Event}
    (hreturned : connection.onmessage ambient (firstResults outcomes count) ep =
      .ok (.returned final epNext events)) :
    ∃ last, last < count ∧ exits (outcomes last) = true ∧
      ∀ earlier < last, exits (outcomes earlier) = false := by
  by_cases hexit : ∃ index, index < count ∧ exits (outcomes index) = true
  · obtain ⟨hlast, hexits⟩ := Nat.find_spec hexit
    refine ⟨Nat.find hexit, hlast, hexits, fun earlier hearlier ↦ ?_⟩
    have hfirst := Nat.find_min hexit hearlier
    rw [not_and, Bool.not_eq_true] at hfirst
    exact hfirst (Nat.lt_trans hearlier hlast)
  · have hgoes : ∀ index < count, exits (outcomes index) = false := fun index hindex ↦
      Bool.eq_false_iff.mpr fun hexits ↦ hexit ⟨index, hindex, hexits⟩
    rw [onmessage_reading ambient hgoes] at hreturned
    cases hreturned

/-- The loop reads up to the first result that exits, and goes on from there. -/
theorem onmessage_to_exit (ambient : Ambient) {outcomes : ℕ → ReadResult} {last : ℕ}
    (hgoes : ∀ earlier < last, exits (outcomes earlier) = false) (tail : List ReadResult)
    (connection : Connection) (ep : Epoll) :
    connection.onmessage ambient (firstResults outcomes last ++ outcomes last :: tail) ep =
      (appended connection (firstResults outcomes last)).onmessage ambient
        (outcomes last :: tail) ep := by
  refine onmessage_append ambient _ _ (fun result hresult ↦ ?_) connection ep
  obtain ⟨index, hindex, rfl⟩ := List.mem_map.mp hresult
  exact hgoes index (List.mem_range.mp hindex)

/-- `EAGAIN` runs the drain loop. -/
theorem onmessage_again (ambient : Ambient) {errno : Errno}
    (hagain : exits (.failed errno) = true) (tail : List ReadResult) (connection : Connection)
    (ep : Epoll) :
    connection.onmessage ambient (.failed errno :: tail) ep =
      match connection.drain ambient 0 with
      | .error fault => .error (.fault fault)
      | .ok (final, events) => .ok (.returned final ep events) := by
  have herrno : errno = EAGAIN ∨ errno = EWOULDBLOCK := of_decide_eq_true hagain
  have hintr : errno ≠ EINTR := by
    rcases herrno with rfl | rfl <;> decide
  rw [onmessage]
  exact (if_neg hintr).trans (if_pos herrno)

/-- For a connection whose channel has the right registration flag: a call of `onmessage` returns on
an infinite sequence of results exactly when some result of it exits, and, where the first of them
runs the drain loop, this does not meet a malformed header. -/
theorem returns_iff (ambient : Ambient) (outcomes : ℕ → ReadResult) (attached : Attached) :
    Returns ambient outcomes attached.connection attached.ep ↔
      ∃ last, exits (outcomes last) = true ∧
        (∀ earlier < last, exits (outcomes earlier) = false) ∧
        (outcomes last ≠ .eof → ¬ FailsOn
          (attached.connection.inputbuffer.buf ++ bytesOf (firstResults outcomes last))) := by
  obtain ⟨connection, ep, hflag⟩ := attached
  constructor
  · rintro ⟨count, final, epNext, events, hreturned, -⟩
    obtain ⟨last, hlast, hexits, hgoes⟩ := exists_exit_of_returned hreturned
    refine ⟨last, hexits, hgoes, fun hagain ↦ ?_⟩
    obtain ⟨tail, htail⟩ := exists_firstResults_eq outcomes hlast
    rw [htail, onmessage_to_exit ambient hgoes] at hreturned
    refine (exists_drain_iff ambient (appended connection (firstResults outcomes last))).mp ?_
    cases hresult : outcomes last with
    | data chunk =>
      rw [hresult] at hexits
      cases hexits
    | eof => exact absurd hresult hagain
    | failed errno =>
      rw [hresult] at hexits hreturned
      rw [onmessage_again ambient hexits] at hreturned
      cases hdrain : (appended connection (firstResults outcomes last)).drain ambient 0 with
      | error fault =>
        rw [hdrain] at hreturned
        cases hreturned
      | ok result => exact ⟨result.1, result.2, rfl⟩
  · rintro ⟨last, hexits, hgoes, hdrains⟩
    have hread := onmessage_to_exit ambient hgoes [] connection ep
    rw [← firstResults_succ] at hread
    cases hresult : outcomes last with
    | data chunk =>
      rw [hresult] at hexits
      cases hexits
    | eof =>
      have hremove : (appended connection (firstResults outcomes last)).clientchannel.remove ep = _ :=
        Channel.remove_of_flagMirrors hflag
      rw [hresult, onmessage, hremove] at hread
      exact ⟨last, _, _, _, hread, .inr ⟨hresult, rfl, List.mem_cons_self⟩⟩
    | failed errno =>
      have hagain : outcomes last ≠ .eof := by simp [hresult]
      obtain ⟨final, events, hdrain⟩ := (exists_drain_iff ambient
        (appended connection (firstResults outcomes last))).mpr (hdrains hagain)
      rw [hresult] at hexits hread
      rw [onmessage_again ambient hexits, hdrain] at hread
      exact ⟨last, final, _, events, hread,
        .inl ⟨⟨errno, hresult, of_decide_eq_true hexits⟩, hdrain⟩⟩

/-- On `ECONNRESET`, over and over, a call never returns. -/
theorem not_returns_econnreset :
    let attached : Attached :=
      ⟨published 1 7 0, Epoll.epollCreate.register 7 ⟨EPOLLET ||| EPOLLIN, 1⟩, rfl⟩
    let outcomes : ℕ → ReadResult := fun _ ↦ .failed ECONNRESET
    Settles outcomes ∧ ¬ Returns .still outcomes attached.connection attached.ep := by
  intro attached outcomes
  have hintr : ECONNRESET ≠ EINTR := by decide
  refine ⟨⟨0, fun _ _ ↦ hintr⟩, ?_⟩
  rintro ⟨last, final, epNext, events, hreturned, -⟩
  have hgoes : ∀ earlier < last + 1, exits (outcomes earlier) = false := fun _ _ ↦ rfl
  rw [onmessage_reading .still hgoes] at hreturned
  cases hreturned

/-- A sequence that settles and has no result that exits keeps the loop reading forever, and from
some result on nothing changes. -/
theorem spins {outcomes : ℕ → ReadResult} (hsettles : Settles outcomes)
    (hgoes : ∀ index, exits (outcomes index) = false) (ambient : Ambient) (connection : Connection)
    (ep : Epoll) :
    ∃ start kept, ∀ more,
      connection.onmessage ambient (firstResults outcomes (start + more)) ep =
        .ok (.reading kept) := by
  obtain ⟨start, hstart⟩ := hsettles
  refine ⟨start, appended connection (firstResults outcomes start), fun more ↦ ?_⟩
  induction more with
  | zero => exact onmessage_reading ambient (fun earlier _ ↦ hgoes earlier) connection ep
  | succ more ih =>
    rw [onmessage_reading ambient fun earlier _ ↦ hgoes earlier] at ih
    have hkept : appended connection (firstResults outcomes (start + more)) = _ :=
      Outcome.reading.inj (Except.ok.inj ih)
    rw [← Nat.add_assoc, firstResults_succ,
      onmessage_to_exit ambient (fun earlier _ ↦ hgoes earlier), hkept]
    have hsettled := hstart (start + more) (Nat.le_add_right _ _)
    have hnext := hgoes (start + more)
    cases hresult : outcomes (start + more) with
    | data chunk =>
      rw [hresult] at hsettled
      exact hsettled.elim
    | eof =>
      rw [hresult] at hnext
      cases hnext
    | failed errno =>
      rw [hresult] at hnext
      have hagain : ¬ (errno = EAGAIN ∨ errno = EWOULDBLOCK) := of_decide_eq_false hnext
      rw [onmessage, if_neg hagain, ite_self, onmessage]

end Reactor.ReadErrors
