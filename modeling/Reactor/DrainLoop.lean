import Reactor.MessageFraming

/-!
# What the drain loop consumes

A stream reaches the input buffer chunk by chunk, and after each chunk `getmessage` is called until
it returns `" "` (`feed`; a call of `onmessage` is one such round, `serve_of_feed`). A round
consumes frames, which are read off the front of the stream one after the other, and leaves what is
behind them in the buffer.

The loop has two ways to stop, since the payload `" "` looks like the absence of a frame.
`drained_exactly` is what a round leaves on a stream whose headers are in range: the first frames of
the greedy parse are consumed, and either no complete frame is left or the last frame the round
consumed had the payload `" "`.
-/

set_option autoImplicit false
set_option relaxedAutoImplicit false

namespace Reactor.DrainLoop

open Library Buffer Connection MessageFraming

/-- The header in front of a list, if it is complete, is between `0` and `2 ^ 31 - 5`. -/
def HeaderInRange : Bytes → Prop
  | b₀ :: b₁ :: b₂ :: b₃ :: _ =>
    0 ≤ NativeInt.decodeInt b₀ b₁ b₂ b₃ ∧ NativeInt.decodeInt b₀ b₁ b₂ b₃ ≤ maxPayload
  | _ => True

/-- The greedy parse of a stream meets only headers in range. -/
def HeadersInRange (stream : Bytes) : Prop :=
  ∀ consumed left, frameParser.Advances stream consumed left → HeaderInRange left

/-- Successive rounds, each of a chunk and the drain loop after it: the connection they leave and
the messages each dispatched. -/
def feed (ambient : ℕ → Ambient) :
    List Bytes → Connection → Except Fault (Connection × List (List Bytes))
  | [], connection => .ok (connection, [])
  | chunk :: rest, connection =>
    let appended := { connection with inputbuffer := connection.inputbuffer.append chunk }
    match appended.drain (ambient 0) 0 with
    | .error fault => .error fault
    | .ok (next, events) =>
      match feed (fun index ↦ ambient (index + 1)) rest next with
      | .error fault => .error fault
      | .ok (final, deliveries) => .ok (final, messages events :: deliveries)

/-- Calls of `onmessage` that end with `EAGAIN` are rounds. -/
theorem serve_of_feed (calls : List (List Attempt)) :
    ∀ {ambient : ℕ → Ambient} {connection final : Connection} (ep : Epoll)
      {deliveries : List (List Bytes)},
      feed ambient (calls.map bytesRead) connection = .ok (final, deliveries) →
        serve ambient calls connection ep = .ok (final, deliveries) := by
  induction calls with
  | nil =>
    intro ambient connection final ep deliveries hfeed
    cases hfeed
    rfl
  | cons call rest ih =>
    intro ambient connection final ep deliveries hfeed
    rw [List.map_cons, feed] at hfeed
    rw [serve, onmessage_callResults]
    change (match (received connection call).drain (ambient 0) 0 with
      | .error fault => _
      | .ok (next, events) => _) = _ at hfeed
    cases hdrain : (received connection call).drain (ambient 0) 0 with
    | error fault =>
      rw [hdrain] at hfeed
      cases hfeed
    | ok result =>
      obtain ⟨next, events⟩ := result
      rw [hdrain] at hfeed
      dsimp only at hfeed ⊢
      split at hfeed
      · cases hfeed
      · rename_i last others hrest
        cases hfeed
        rw [ih ep hrest]

/-! ### One round -/

/-- A header in range is not malformed. -/
theorem HeaderInRange.formed {input : Bytes} (hrange : HeaderInRange input) :
    ¬ Malformed input := by
  intro hmalformed
  match input with
  | [] | [_] | [_, _] | [_, _, _] => exact hmalformed
  | b₀ :: b₁ :: b₂ :: b₃ :: body =>
    obtain ⟨hnonneg, hmax⟩ := hrange
    rcases hmalformed with habove | ⟨hnegative, -⟩
    · exact absurd habove (Int.not_lt.mpr hmax)
    · exact absurd hnegative (Int.not_lt.mpr hnonneg)

/-- A header that is in range in a longer list is in range. -/
theorem HeaderInRange.of_append {input more : Bytes} (hrange : HeaderInRange (input ++ more)) :
    HeaderInRange input := by
  match input with
  | [] | [_] | [_, _] | [_, _, _] => trivial
  | _ :: _ :: _ :: _ :: _ => exact hrange

/-- A first part of a stream with headers in range has its headers in range. -/
theorem HeadersInRange.of_append {stream more : Bytes} (hrange : HeadersInRange (stream ++ more)) :
    HeadersInRange stream :=
  fun _ _ hadvance ↦ (hrange _ _ (hadvance.append more)).of_append

/-- What is left of a stream with headers in range has its headers in range. -/
theorem HeadersInRange.of_advances {stream left : Bytes} {consumed : List Bytes}
    (hrange : HeadersInRange stream) (hadvance : frameParser.Advances stream consumed left) :
    HeadersInRange left :=
  fun _ _ hmore ↦ hrange _ _ (hadvance.trans hmore)

/-- A complete frame has its header in range. -/
theorem headerInRange_of_next {input : Bytes} {found : Bytes × Bytes}
    (hnext : frameParser.next input = some found) : HeaderInRange input := by
  match input with
  | [] | [_] | [_, _] | [_, _, _] => trivial
  | b₀ :: b₁ :: b₂ :: b₃ :: body =>
    change frontFrame (b₀ :: b₁ :: b₂ :: b₃ :: body) = some found at hnext
    simp only [frontFrame] at hnext
    split_ifs at hnext with hframe
    exact ⟨hframe.1, hframe.2.1⟩

/-- A stream of encoded payloads has its headers in range. -/
theorem headersInRange_encodeAll {payloads : List Bytes}
    (hmax : ∀ payload ∈ payloads, (payload.length : ℤ) ≤ maxPayload) :
    HeadersInRange (payloads.flatMap encode) := by
  induction payloads with
  | nil =>
    intro consumed left hadvance
    cases hadvance with
    | refl => trivial
    | cons hnext => cases hnext
  | cons payload rest ih =>
    obtain ⟨hpayload, hrest⟩ := List.forall_mem_cons.mp hmax
    have hfirst : frameParser.next (encode payload ++ rest.flatMap encode) =
        some (payload, rest.flatMap encode) := encodes hpayload _
    intro consumed left hadvance
    rw [List.flatMap_cons] at hadvance
    cases hadvance with
    | refl => exact headerInRange_of_next hfirst
    | cons hnext hmore =>
      rw [hfirst] at hnext
      cases hnext
      exact ih hrest _ _ hmore

/-- The loop stopped because no frame was in front, or because of a frame with the payload `" "`. -/
def Stops (frames : List Bytes) (left : Bytes) : Prop :=
  frameParser.next left = none ∨ frames.getLast? = some noMessage

/-- The drain of a buffer with headers in range consumes frames and dispatches those whose payload
is not `" "`. -/
theorem exists_round (ambient : Ambient) (count : ℕ) {connection : Connection}
    (hcallback : connection.messagecallback = true)
    (hrange : HeadersInRange connection.inputbuffer.buf) :
    ∃ frames next events, connection.drain ambient count = .ok (next, events) ∧
      messages events = frames.filter (· ≠ noMessage) ∧
      frameParser.Advances connection.inputbuffer.buf frames next.inputbuffer.buf ∧
      Stops frames next.inputbuffer.buf ∧ next.messagecallback = true := by
  obtain ⟨dispatched, left, hnot, hcases⟩ := drain_cases ambient count connection
  have hmessages : messages (connection.dispatches dispatched) = dispatched := by
    rw [messages_dispatches, if_pos hcallback]
  have hfilter : dispatched.filter (· ≠ noMessage) = dispatched := by
    rw [List.filter_eq_self]
    intro payload hpayload
    exact decide_eq_true fun heq ↦ hnot (heq ▸ hpayload)
  rcases hcases with ⟨hadvance, hdone, -, hdrain⟩ | ⟨hadvance, hdrain⟩ | ⟨hadvance, hmalformed, -⟩
  · exact ⟨dispatched, _, _, hdrain, hmessages.trans hfilter.symm, hadvance, .inl hdone, hcallback⟩
  · refine ⟨dispatched ++ [noMessage], _, _, hdrain, ?_, hadvance, .inr ?_, hcallback⟩
    · rw [List.filter_append, hfilter, hmessages]
      simp
    · exact List.getLast?_concat
  · exact absurd hmalformed (hrange _ _ hadvance).formed

/-! ### All rounds -/

/-- Rounds on a stream with headers in range: the frames each consumes, and what is left after each
of them. -/
theorem exists_rounds (chunks : List Bytes) :
    ∀ {ambient : ℕ → Ambient} {connection : Connection},
      connection.messagecallback = true →
      HeadersInRange (connection.inputbuffer.buf ++ chunks.flatten) →
        ∃ rounds : List (List Bytes), rounds.length = chunks.length ∧
          ∀ made ≤ chunks.length, ∃ next,
            feed ambient (chunks.take made) connection =
              .ok (next, (rounds.take made).map (·.filter (· ≠ noMessage))) ∧
            frameParser.Advances (connection.inputbuffer.buf ++ (chunks.take made).flatten)
              (rounds.take made).flatten next.inputbuffer.buf ∧
            ∀ frames, 0 < made → rounds[made - 1]? = some frames →
              Stops frames next.inputbuffer.buf := by
  induction chunks with
  | nil =>
    intro ambient connection _ _
    refine ⟨[], rfl, fun made hmade ↦ ⟨connection, ?_, ?_, nofun⟩⟩
    · simp [feed]
    · simpa using StreamParser.Advances.refl _
  | cons chunk rest ih =>
    intro ambient connection hcallback hrange
    rw [List.flatten_cons, ← List.append_assoc] at hrange
    let appended := { connection with inputbuffer := connection.inputbuffer.append chunk }
    have happended : appended.messagecallback = true := hcallback
    obtain ⟨frames, next, events, hdrain, hmessages, hadvance, hstops, hset⟩ :=
      exists_round (ambient 0) 0 happended hrange.of_append
    have hleft : HeadersInRange (next.inputbuffer.buf ++ rest.flatten) :=
      hrange.of_advances (hadvance.append _)
    obtain ⟨rounds, hlength, hrounds⟩ := @ih (fun index ↦ ambient (index + 1)) next hset hleft
    refine ⟨frames :: rounds, by rw [List.length_cons, List.length_cons, hlength], ?_⟩
    intro made hmade
    cases made with
    | zero => exact ⟨connection, rfl, by simpa using StreamParser.Advances.refl _, nofun⟩
    | succ made =>
      obtain ⟨final, hfeed, hrest, hlast⟩ := hrounds made (Nat.le_of_succ_le_succ hmade)
      refine ⟨final, ?_, ?_, fun last _ hget ↦ ?_⟩
      · rw [List.take_succ_cons, feed, hdrain]
        dsimp only
        rw [hfeed, hmessages]
        rfl
      · rw [List.take_succ_cons, List.take_succ_cons, List.flatten_cons, List.flatten_cons,
          ← List.append_assoc]
        exact (hadvance.append _).trans hrest
      · cases made with
        | zero =>
          cases hfeed
          obtain rfl : frames = last := by simpa using hget
          exact hstops
        | succ made => exact hlast last (Nat.succ_pos made) (by simpa using hget)

/-- The bytes of the frames read off a list, apart from what is left. -/
theorem exists_front_of_advances {input left : Bytes} {consumed : List Bytes}
    (hadvance : frameParser.Advances input consumed left) :
    ∃ front, input = front ++ left ∧ frameParser.Advances front consumed [] := by
  induction hadvance with
  | refl input => exact ⟨[], rfl, .refl []⟩
  | cons hnext _ ih =>
    obtain ⟨behind, hsplit, hbehind⟩ := ih
    obtain ⟨frame, hinput, hframe⟩ := exists_front_of_next hnext
    refine ⟨frame ++ behind, ?_, .cons (frameParser.extend behind hframe) hbehind⟩
    rw [hinput, hsplit, List.append_assoc]

/-- For a connection with its message callback set and an empty buffer, and a stream with headers in
range that arrives in any chunks: after each round, the frames consumed are the first ones of the
greedy parse of what was received, the buffer is what follows their bytes, the messages dispatched
are their payloads other than `" "`, and no complete frame is left or the last frame of the round
had the payload `" "`. -/
theorem drained_exactly (ambient : ℕ → Ambient) {connection : Connection}
    (hempty : connection.inputbuffer.buf = []) (hcallback : connection.messagecallback = true)
    {chunks : List Bytes} (hrange : HeadersInRange chunks.flatten) :
    ∃ rounds : List (List Bytes), rounds.length = chunks.length ∧
      ∀ made ≤ chunks.length, ∃ next front,
        feed ambient (chunks.take made) connection =
          .ok (next, (rounds.take made).map (·.filter (· ≠ noMessage))) ∧
        (rounds.take made).flatten <+: frameParser.items (chunks.take made).flatten ∧
        (chunks.take made).flatten = front ++ next.inputbuffer.buf ∧
        frameParser.Advances front (rounds.take made).flatten [] ∧
        ∀ frames, 0 < made → rounds[made - 1]? = some frames →
          frameParser.next next.inputbuffer.buf = none ∨ frames.getLast? = some noMessage := by
  have hstream : HeadersInRange (connection.inputbuffer.buf ++ chunks.flatten) := by
    rwa [hempty]
  obtain ⟨rounds, hlength, hrounds⟩ := @exists_rounds chunks ambient connection hcallback hstream
  refine ⟨rounds, hlength, fun made hmade ↦ ?_⟩
  obtain ⟨next, hfeed, hadvance, hlast⟩ := hrounds made hmade
  rw [hempty, List.nil_append] at hadvance
  obtain ⟨front, hsplit, hfront⟩ := exists_front_of_advances hadvance
  exact ⟨next, front, hfeed, ⟨_, hadvance.items_eq.symm⟩, hsplit, hfront, hlast⟩

/-- The payloads `" "` and `"a"`, cut inside the second header. -/
theorem drained_exactly_cut :
    let chunks : List Bytes := [[1, 0, 0, 0, 32, 1, 0], [0, 0, 97]]
    chunks.flatten = [noMessage, [97]].flatMap encode ∧
      ∃ rounds : List (List Bytes), rounds.length = 2 ∧
        ∃ next front, feed (fun _ ↦ .still) chunks (published 1 7 0) =
            .ok (next, rounds.map (·.filter (· ≠ noMessage))) ∧
          chunks.flatten = front ++ next.inputbuffer.buf ∧
          frameParser.Advances front rounds.flatten [] := by
  intro chunks
  have hchunks : chunks.flatten = [noMessage, [97]].flatMap encode := by decide
  have hrange : HeadersInRange chunks.flatten := hchunks ▸ headersInRange_encodeAll (by decide)
  obtain ⟨rounds, hlength, hrounds⟩ :=
    @drained_exactly (fun _ ↦ .still) (published 1 7 0) rfl rfl chunks hrange
  obtain ⟨next, front, hfeed, -, hsplit, hfront, -⟩ := hrounds 2 (Nat.le_refl 2)
  have hall : rounds.take 2 = rounds := List.take_of_length_le (Nat.le_of_eq hlength)
  rw [hall] at hfeed hfront
  exact ⟨hchunks, rounds, hlength, next, front, hfeed, hsplit, hfront⟩

end Reactor.DrainLoop
