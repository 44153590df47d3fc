import Reactor.Connection

/-!
# Framing of messages by `onmessage`

A peer's bytes reach a connection as the data of successive `read` calls, some of them interrupted
(`Attempt`), grouped into calls of `onmessage` that each end with `EAGAIN` (`serve`). The drain loop
of each call dispatches the frames it finds.

`Delivers` is the framing contract: the messages dispatched over all calls are the payloads sent,
and each is dispatched no later than the call that read its last byte. The loop stops at the string
`" "`, which also is what `getmessage` returns for a frame with that payload, so the contract holds
exactly of the streams without such a payload (`delivers_iff`).

`ServeCalls` relates a stream to the buffers `getmessage` is called on, and `SafeCall` is what such
a call must do: not overflow, not throw, and touch the buffer only for a complete frame. Every call
on every split of a byte sequence is safe exactly when the greedy parse of the sequence does not
stop at a malformed header (`safe_iff`).

A call of `onmessage` that ends with a zero `read` closes without draining. `PassedBeforeClose`
holds of it exactly when no complete frame had been received (`passedBeforeClose_iff`).
-/

set_option autoImplicit false
set_option relaxedAutoImplicit false

namespace Reactor.MessageFraming

open Library Buffer Connection

/-- A `read` that brought data, or was interrupted. -/
abbrev Attempt := Option Chunk

/-- The result of such a `read`. -/
def readResult : Attempt → ReadResult
  | none => .failed EINTR
  | some chunk => .data chunk

/-- The bytes some of them brought. -/
def bytesRead (attempts : List Attempt) : Bytes :=
  attempts.flatMap fun attempt ↦
    match attempt with
    | none => []
    | some chunk => chunk.val

/-- The results `onmessage` sees in a call that ends with `EAGAIN`. -/
def callResults (attempts : List Attempt) : List ReadResult :=
  attempts.map readResult ++ [.failed EAGAIN]

/-- Successive calls of `onmessage`: the connection they leave and the messages each dispatched. -/
def serve (ambient : ℕ → Ambient) :
    List (List Attempt) → Connection → Epoll → Except Crash (Connection × List (List Bytes))
  | [], connection, _ => .ok (connection, [])
  | call :: rest, connection, ep =>
    match onmessage (ambient 0) (callResults call) connection ep with
    | .error crash => .error crash
    | .ok (.reading final) => .ok (final, [])
    | .ok (.returned next epNext events) =>
      match serve (fun index ↦ ambient (index + 1)) rest next epNext with
      | .error crash => .error crash
      | .ok (final, deliveries) => .ok (final, messages events :: deliveries)

/-- The connection after the data of some attempts has been appended. -/
def received (connection : Connection) (attempts : List Attempt) : Connection :=
  { connection with inputbuffer := connection.inputbuffer.append (bytesRead attempts) }

/-- Reading the data of some attempts appends it, whatever result comes next. -/
theorem onmessage_attempts (ambient : Ambient) (attempts : List Attempt)
    (tail : List ReadResult) (connection : Connection) (ep : Epoll) :
    onmessage ambient (attempts.map readResult ++ tail) connection ep =
      onmessage ambient tail (received connection attempts) ep := by
  induction attempts generalizing connection with
  | nil => simp [received, bytesRead]
  | cons attempt rest ih =>
    cases attempt with
    | none =>
      simp only [List.map_cons, List.cons_append, readResult, onmessage, if_pos, ih]
      rfl
    | some chunk =>
      simp only [List.map_cons, List.cons_append, readResult, onmessage, ih, received,
        append_append]
      rfl

/-- A call that ends with `EAGAIN` drains what it has received. -/
theorem onmessage_callResults (ambient : Ambient) (attempts : List Attempt)
    (connection : Connection) (ep : Epoll) :
    onmessage ambient (callResults attempts) connection ep =
      match (received connection attempts).drain ambient 0 with
      | .error fault => .error (.fault fault)
      | .ok (final, events) => .ok (.returned final ep events) := by
  rw [callResults, onmessage_attempts]
  rfl

/-! ### Delivery of what was sent -/

/-- The framing contract over some calls: the payloads sent are dispatched, in order and once each,
and the first `sent` of them are dispatched by the end of the call that brings the last of their
bytes. -/
def Delivers (ambient : ℕ → Ambient) (connection : Connection) (ep : Epoll)
    (payloads : List Bytes) (calls : List (List Attempt)) : Prop :=
  ∃ final deliveries, serve ambient calls connection ep = .ok (final, deliveries) ∧
    deliveries.flatten = payloads ∧
    ∀ made sent : ℕ, sent ≤ payloads.length →
      ((payloads.take sent).flatMap encode).length ≤
        ((calls.take made).flatMap bytesRead).length →
      sent ≤ (deliveries.take made).flatten.length

/-- A stream is clean for a connection when the frames it completes have no `" "` payload and it
does not end in a malformed header. -/
structure Clean (buffered stream : Bytes) : Prop where
  noSentinel : noMessage ∉ frameParser.items (buffered ++ stream)
  formed : ¬ Malformed (frameParser.remainder (buffered ++ stream))

/-- A prefix of a clean stream is clean. -/
theorem Clean.of_append {buffered stream more : Bytes} (hclean : Clean buffered (stream ++ more)) :
    Clean buffered stream := by
  constructor
  · intro hmem
    apply hclean.noSentinel
    rw [← List.append_assoc, StreamParser.items_append]
    exact List.mem_append_left _ hmem
  · intro hmalformed
    apply hclean.formed
    rw [← List.append_assoc, StreamParser.remainder_append]
    exact malformed_remainder_append hmalformed more

/-- The drain of a connection whose buffer is clean dispatches every complete frame and keeps the
rest. -/
theorem drain_of_clean (ambient : Ambient) (count : ℕ) {connection : Connection}
    (hclean : Clean connection.inputbuffer.buf []) :
    connection.drain ambient count =
      .ok (connection.drained ambient count
          (frameParser.items connection.inputbuffer.buf)
          (frameParser.remainder connection.inputbuffer.buf),
        connection.dispatches (frameParser.items connection.inputbuffer.buf)) := by
  have hsentinel := hclean.noSentinel
  have hformed := hclean.formed
  rw [List.append_nil] at hsentinel hformed
  obtain ⟨dispatched, left, -, hcases⟩ := drain_cases ambient count connection
  rcases hcases with ⟨hadvance, hdone, -, hdrain⟩ | ⟨hadvance, -⟩ | ⟨hadvance, hmalformed, -⟩
  · have hitems := hadvance.items_eq
    have hremainder := hadvance.remainder_eq
    rw [StreamParser.items_of_none hdone, List.append_nil] at hitems
    rw [StreamParser.remainder_of_none hdone] at hremainder
    rw [hitems, hremainder, hdrain]
  · refine absurd ?_ hsentinel
    rw [hadvance.items_eq]
    simp
  · refine absurd ?_ hformed
    rw [hadvance.remainder_eq, StreamParser.remainder_of_none (next_of_malformed hmalformed)]
    exact hmalformed

/-- What the parse of a first part leaves over is again in front of a clean stream. -/
theorem Clean.tail {buffered stream more : Bytes} (hclean : Clean buffered (stream ++ more)) :
    Clean (frameParser.remainder (buffered ++ stream)) more := by
  constructor
  · intro hmem
    apply hclean.noSentinel
    rw [← List.append_assoc, StreamParser.items_append]
    exact List.mem_append_right _ hmem
  · intro hmalformed
    apply hclean.formed
    rwa [← List.append_assoc, StreamParser.remainder_append]

/-- One call on a clean stream dispatches the frames it completes and leaves their remainder. -/
theorem onmessage_of_clean (ambient : Ambient) {connection : Connection} (ep : Epoll)
    {call : List Attempt} (hclean : Clean connection.inputbuffer.buf (bytesRead call)) :
    ∃ next, onmessage ambient (callResults call) connection ep =
        .ok (.returned next ep
          (connection.dispatches
            (frameParser.items (connection.inputbuffer.buf ++ bytesRead call)))) ∧
      next.inputbuffer.buf =
        frameParser.remainder (connection.inputbuffer.buf ++ bytesRead call) ∧
      next.messagecallback = connection.messagecallback := by
  have hreceived : Clean (received connection call).inputbuffer.buf [] :=
    ⟨by simpa [received] using hclean.noSentinel, by simpa [received] using hclean.formed⟩
  refine ⟨(received connection call).drained ambient 0
    (frameParser.items (received connection call).inputbuffer.buf)
    (frameParser.remainder (received connection call).inputbuffer.buf), ?_, rfl, rfl⟩
  rw [onmessage_callResults, drain_of_clean ambient 0 hreceived]
  rfl

/-- Over a clean stream the messages dispatched are the complete frames of all that was received. -/
theorem serve_of_clean (calls : List (List Attempt)) :
    ∀ (ambient : ℕ → Ambient) (connection : Connection) (ep : Epoll),
      frameParser.next connection.inputbuffer.buf = none →
      connection.messagecallback = true →
      Clean connection.inputbuffer.buf (calls.flatMap bytesRead) →
        ∃ final deliveries, serve ambient calls connection ep = .ok (final, deliveries) ∧
          deliveries.flatten =
            frameParser.items (connection.inputbuffer.buf ++ calls.flatMap bytesRead) := by
  induction calls with
  | nil =>
    intro ambient connection ep hidle _ _
    refine ⟨connection, [], rfl, ?_⟩
    rw [List.flatMap_nil, List.append_nil, StreamParser.items_of_none hidle]
    rfl
  | cons call rest ih =>
    intro ambient connection ep _ hcallback hclean
    rw [List.flatMap_cons] at hclean ⊢
    obtain ⟨next, hcall, hbuffer, hset⟩ := onmessage_of_clean (ambient 0) ep hclean.of_append
    have hidle : frameParser.next next.inputbuffer.buf = none := by
      rw [hbuffer]
      exact StreamParser.next_remainder _
    have htail : Clean next.inputbuffer.buf (rest.flatMap bytesRead) := by
      rw [hbuffer]
      exact hclean.tail
    obtain ⟨final, deliveries, hserve, hflatten⟩ :=
      ih (fun index ↦ ambient (index + 1)) next ep hidle (hset.trans hcallback) htail
    refine ⟨final, _, by rw [serve, hcall]; dsimp only; rw [hserve], ?_⟩
    rw [List.flatten_cons, messages_dispatches, if_pos hcallback, hflatten, hbuffer,
      ← List.append_assoc, StreamParser.items_append (_ ++ _)]

/-- The first calls of a run leave the first deliveries. -/
theorem serve_take (calls : List (List Attempt)) :
    ∀ (made : ℕ) (ambient : ℕ → Ambient) (connection final : Connection) (ep : Epoll)
      (deliveries : List (List Bytes)),
      serve ambient calls connection ep = .ok (final, deliveries) →
        ∃ middle, serve ambient (calls.take made) connection ep =
          .ok (middle, deliveries.take made) := by
  induction calls with
  | nil =>
    intro made ambient connection final ep deliveries hserve
    cases hserve
    exact ⟨connection, by simp [serve]⟩
  | cons call rest ih =>
    intro made ambient connection final ep deliveries hserve
    cases made with
    | zero => exact ⟨connection, by simp [serve]⟩
    | succ made =>
      rw [List.take_succ_cons, serve]
      rw [serve] at hserve
      split at hserve
      · cases hserve
      · cases hserve
        exact ⟨final, by simp⟩
      · rename_i next epNext events hcall
        split at hserve
        · cases hserve
        · rename_i last others hrest
          cases hserve
          obtain ⟨middle, hmiddle⟩ := ih made _ _ _ _ _ hrest
          exact ⟨middle, by rw [hmiddle]; rfl⟩

/-- No drain dispatches the string `" "`. -/
theorem noMessage_notMem_messages {ambient : Ambient} {count : ℕ} {connection final : Connection}
    {events : List Event} (hdrain : connection.drain ambient count = .ok (final, events)) :
    noMessage ∉ messages events := by
  obtain ⟨dispatched, left, hnot, hcases⟩ := drain_cases ambient count connection
  have hdispatches : noMessage ∉ messages (connection.dispatches dispatched) := by
    rw [messages_dispatches]
    split_ifs
    · exact hnot
    · exact List.not_mem_nil
  rcases hcases with ⟨_, _, _, hok⟩ | ⟨_, hok⟩ | ⟨_, _, fault, herror⟩
  · rw [hok] at hdrain
    cases hdrain
    exact hdispatches
  · rw [hok] at hdrain
    cases hdrain
    exact hdispatches
  · rw [herror] at hdrain
    cases hdrain

/-- No call of a run dispatches the string `" "`. -/
theorem noMessage_notMem_deliveries (calls : List (List Attempt)) :
    ∀ (ambient : ℕ → Ambient) (connection final : Connection) (ep : Epoll)
      (deliveries : List (List Bytes)),
      serve ambient calls connection ep = .ok (final, deliveries) →
        noMessage ∉ deliveries.flatten := by
  induction calls with
  | nil =>
    intro ambient connection final ep deliveries hserve
    cases hserve
    exact List.not_mem_nil
  | cons call rest ih =>
    intro ambient connection final ep deliveries hserve
    rw [serve, onmessage_callResults] at hserve
    cases hdrain : (received connection call).drain (ambient 0) 0 with
    | error fault =>
      rw [hdrain] at hserve
      cases hserve
    | ok result =>
      obtain ⟨next, events⟩ := result
      rw [hdrain] at hserve
      dsimp only at hserve
      split at hserve
      · cases hserve
      · rename_i last others hrest
        cases hserve
        rw [List.flatten_cons, List.mem_append, not_or]
        exact ⟨noMessage_notMem_messages hdrain, ih _ _ _ _ _ hrest⟩

/-- A connection with its message callback set and an empty buffer, served a stream of encoded
payloads of at most `2 ^ 31 - 5` bytes cut anywhere and grouped into calls in any way, delivers the
payloads exactly when none of them is the string `" "`. -/
theorem delivers_iff (ambient : ℕ → Ambient) {connection : Connection} (ep : Epoll)
    (hempty : connection.inputbuffer.buf = []) (hcallback : connection.messagecallback = true)
    {payloads : List Bytes} (hmax : ∀ payload ∈ payloads, (payload.length : ℤ) ≤ maxPayload)
    {calls : List (List Attempt)} (hstream : calls.flatMap bytesRead = payloads.flatMap encode) :
    Delivers ambient connection ep payloads calls ↔ noMessage ∉ payloads := by
  have hencodes : ∀ payload ∈ payloads, frameParser.Encodes encode payload :=
    fun payload hpayload ↦ encodes (hmax payload hpayload)
  constructor
  · rintro ⟨final, deliveries, hserve, hflatten, -⟩
    rw [← hflatten]
    exact noMessage_notMem_deliveries calls _ _ _ _ _ hserve
  · intro hnot
    have hidle : frameParser.next connection.inputbuffer.buf = none := by rw [hempty]; rfl
    have hitems := items_encodeAll hmax
    have hclean : Clean connection.inputbuffer.buf (calls.flatMap bytesRead) := by
      rw [hempty, hstream]
      constructor
      · rwa [List.nil_append, hitems]
      · rw [List.nil_append, remainder_encodeAll hmax]
        exact id
    obtain ⟨final, deliveries, hserve, hflatten⟩ :=
      serve_of_clean calls ambient connection ep hidle hcallback hclean
    rw [hempty, List.nil_append, hstream, hitems] at hflatten
    refine ⟨final, deliveries, hserve, hflatten, ?_⟩
    intro made sent hsent hbytes
    have hsplit : calls.flatMap bytesRead =
        (calls.take made).flatMap bytesRead ++ (calls.drop made).flatMap bytesRead := by
      rw [← List.flatMap_append, List.take_append_drop]
    rw [hsplit] at hclean
    obtain ⟨middle, hmiddle⟩ := serve_take calls made _ _ _ _ _ hserve
    obtain ⟨other, others, hother, hfirst⟩ :=
      serve_of_clean (calls.take made) ambient connection ep hidle hcallback hclean.of_append
    rw [hmiddle] at hother
    cases hother
    rw [hfirst, hempty, List.nil_append]
    have hfront : (payloads.take sent).flatMap encode <+: (calls.take made).flatMap bytesRead := by
      refine List.prefix_of_prefix_length_le ?_ ⟨_, hsplit.symm⟩ hbytes
      rw [hstream]
      exact ⟨(payloads.drop sent).flatMap encode, by
        rw [← List.flatMap_append, List.take_append_drop]⟩
    have hcount := StreamParser.length_le_length_items
      (fun payload hpayload ↦ hencodes payload (List.mem_of_mem_take hpayload)) hfront
    rwa [List.length_take, Nat.min_eq_left hsent] at hcount

/-- A payload and an empty payload, cut inside both headers and read in two calls. -/
theorem delivers_cut :
    Delivers (fun _ ↦ .still) (published 1 7 0) .epollCreate [[97], []]
      [[some ⟨[1, 0, 0], by decide⟩], [none, some ⟨[0, 97, 0, 0], by decide⟩,
        some ⟨[0, 0], by decide⟩]] :=
  (delivers_iff _ _ rfl rfl (by decide) (by decide)).mpr (by decide)

/-- The frame behind a `" "` is not delivered. -/
theorem not_delivers_noMessage :
    ¬ Delivers (fun _ ↦ .still) (published 1 7 0) .epollCreate [noMessage, [97]]
      [[some ⟨encode noMessage ++ encode [97], by decide⟩]] := by
  rintro ⟨final, deliveries, hserve, hflatten, -⟩
  have hnot := noMessage_notMem_deliveries _ _ _ _ _ _ hserve
  rw [hflatten] at hnot
  exact hnot List.mem_cons_self

/-! ### Safety of the calls of `getmessage` -/

/-- The calls of `getmessage` a drain makes: the stale bytes and the buffer of each. -/
inductive DrainCalls (ambient : Ambient) : ℕ → Buffer → Stale → Buffer → Prop
  | first (count : ℕ) (buffer : Buffer) :
      DrainCalls ambient count buffer (ambient.stale count) buffer
  | later {count : ℕ} {buffer rest called : Buffer} {message : Bytes} {stale : Stale}
      (hcall : buffer.getmessage (ambient.stale count) = .ok (message, rest))
      (hmessage : message ≠ noMessage) (hrest : DrainCalls ambient (count + 1) rest stale called) :
      DrainCalls ambient count buffer stale called

/-- The calls of `getmessage` made over successive calls of `onmessage`. -/
inductive ServeCalls :
    (ℕ → Ambient) → List (List Attempt) → Connection → Epoll → Stale → Buffer → Prop
  | now {ambient : ℕ → Ambient} {call : List Attempt} {rest : List (List Attempt)}
      {connection : Connection} {ep : Epoll} {stale : Stale} {called : Buffer}
      (hdrain : DrainCalls (ambient 0) 0 (received connection call).inputbuffer stale called) :
      ServeCalls ambient (call :: rest) connection ep stale called
  | later {ambient : ℕ → Ambient} {call : List Attempt} {rest : List (List Attempt)}
      {connection next : Connection} {ep epNext : Epoll} {events : List Event} {stale : Stale}
      {called : Buffer}
      (hcall : onmessage (ambient 0) (callResults call) connection ep =
        .ok (.returned next epNext events))
      (hrest : ServeCalls (fun index ↦ ambient (index + 1)) rest next epNext stale called) :
      ServeCalls ambient (call :: rest) connection ep stale called

/-- What a call of `getmessage` must do. It completes; and on a buffer that holds a header, the sum
`len + 4` is an `int`, a complete frame is copied and erased, and in every other case no message is
reported and the buffer is left as it is. -/
structure SafeCall (stale : Stale) (buffer : Buffer) : Prop where
  completes : ∃ message rest, buffer.getmessage stale = .ok (message, rest)
  noOverflow : 4 ≤ buffer.size → buffer.header stale + 4 ≤ NativeInt.INT_MAX
  complete : 4 ≤ buffer.size → 0 ≤ buffer.header stale →
    buffer.header stale + 4 ≤ buffer.size →
      buffer.getmessage stale =
        .ok ((buffer.buf.drop 4).take (buffer.header stale).toNat,
          ⟨buffer.buf.drop ((buffer.header stale).toNat + 4)⟩)
  otherwise : 4 ≤ buffer.size →
    ¬ (0 ≤ buffer.header stale ∧ buffer.header stale + 4 ≤ buffer.size) →
      buffer.getmessage stale = .ok (noMessage, buffer)

/-- A call of `getmessage` is safe exactly when the header it finds is not malformed. -/
theorem safeCall_iff (stale : Stale) (buffer : Buffer) :
    SafeCall stale buffer ↔ ¬ Malformed buffer.buf := by
  constructor
  · intro hsafe hmalformed
    obtain ⟨fault, hfault⟩ := getmessage_of_malformed stale hmalformed
    obtain ⟨message, rest, hok⟩ := hsafe.completes
    rw [hfault] at hok
    cases hok
  · intro hformed
    obtain ⟨buf⟩ := buffer
    match buf with
    | [] | [_] | [_, _] | [_, _, _] =>
      refine ⟨⟨_, _, getmessage_of_short stale (by simp [size])⟩, ?_, ?_, ?_⟩ <;>
        exact fun hlong ↦ absurd hlong (by simp [size])
    | b₀ :: b₁ :: b₂ :: b₃ :: body =>
      have hmax : NativeInt.decodeInt b₀ b₁ b₂ b₃ ≤ maxPayload :=
        Int.not_lt.mp fun h ↦ hformed (.inl h)
      have hbound : NativeInt.decodeInt b₀ b₁ b₂ b₃ + 4 ≤ NativeInt.INT_MAX := by
        unfold maxPayload at hmax
        unfold NativeInt.INT_MAX
        omega
      have hcomplete : 0 ≤ NativeInt.decodeInt b₀ b₁ b₂ b₃ →
          NativeInt.decodeInt b₀ b₁ b₂ b₃ ≤ body.length →
            getmessage stale ⟨b₀ :: b₁ :: b₂ :: b₃ :: body⟩ =
              .ok (body.take (NativeInt.decodeInt b₀ b₁ b₂ b₃).toNat,
                ⟨body.drop (NativeInt.decodeInt b₀ b₁ b₂ b₃).toNat⟩) :=
        fun hnonneg hlength ↦ getmessage_of_next stale (if_pos ⟨hnonneg, hmax, hlength⟩)
      have hotherwise : ¬ (0 ≤ NativeInt.decodeInt b₀ b₁ b₂ b₃ ∧
          NativeInt.decodeInt b₀ b₁ b₂ b₃ ≤ body.length) →
            getmessage stale ⟨b₀ :: b₁ :: b₂ :: b₃ :: body⟩ =
              .ok (noMessage, ⟨b₀ :: b₁ :: b₂ :: b₃ :: body⟩) :=
        fun hnot ↦ getmessage_of_incomplete stale
          (if_neg fun h ↦ hnot ⟨h.1, h.2.2⟩) hformed
      refine ⟨?_, fun _ ↦ hbound, fun _ hnonneg hlength ↦ ?_, fun _ hnot ↦ ?_⟩
      · by_cases hframe : 0 ≤ NativeInt.decodeInt b₀ b₁ b₂ b₃ ∧
          NativeInt.decodeInt b₀ b₁ b₂ b₃ ≤ body.length
        · exact ⟨_, _, hcomplete hframe.1 hframe.2⟩
        · exact ⟨_, _, hotherwise hframe⟩
      · rw [header_cons] at hnonneg hlength ⊢
        simp only [size, List.length_cons] at hlength
        exact hcomplete hnonneg (by omega)
      · rw [header_cons] at hnot
        simp only [size, List.length_cons] at hnot
        exact hotherwise fun h ↦ hnot ⟨h.1, by omega⟩

/-- The buffers a drain calls `getmessage` on are what is left after reading some frames, none of
them with the payload `" "`. -/
theorem DrainCalls.advances {ambient : Ambient} {count : ℕ} {buffer called : Buffer} {stale : Stale}
    (hdrain : DrainCalls ambient count buffer stale called) :
    ∃ consumed, noMessage ∉ consumed ∧
      frameParser.Advances buffer.buf consumed called.buf := by
  induction hdrain with
  | first count buffer => exact ⟨[], List.not_mem_nil, .refl _⟩
  | @later count buffer rest called message stale hcall hmessage _ ih =>
    obtain ⟨consumed, hnot, hrest⟩ := ih
    rcases getmessage_cases (ambient.stale count) buffer with
      ⟨payload, left, hnext, hok⟩ | ⟨_, _, hok⟩ | ⟨_, fault, herror⟩
    · rw [hok] at hcall
      cases hcall
      exact ⟨_, List.not_mem_cons_of_ne_of_not_mem hmessage.symm hnot, .cons hnext hrest⟩
    · rw [hok] at hcall
      cases hcall
      exact absurd rfl hmessage
    · rw [herror] at hcall
      cases hcall

/-- A call of `onmessage` that returns from a drain has read some frames. -/
theorem onmessage_advances {ambient : Ambient} {call : List Attempt} {connection next : Connection}
    {ep epNext : Epoll} {events : List Event}
    (hcall : onmessage ambient (callResults call) connection ep =
      .ok (.returned next epNext events)) :
    ∃ consumed, frameParser.Advances (connection.inputbuffer.buf ++ bytesRead call) consumed
      next.inputbuffer.buf := by
  rw [onmessage_callResults] at hcall
  obtain ⟨dispatched, left, -, hcases⟩ := drain_cases ambient 0 (received connection call)
  rcases hcases with ⟨hadvance, _, _, hok⟩ | ⟨hadvance, hok⟩ | ⟨_, _, fault, herror⟩
  · rw [hok] at hcall
    cases hcall
    exact ⟨_, hadvance⟩
  · rw [hok] at hcall
    cases hcall
    exact ⟨_, hadvance⟩
  · rw [herror] at hcall
    cases hcall

/-- On a stream whose greedy parse does not stop at a malformed header, no call of `getmessage`
meets one. -/
theorem ServeCalls.formed {ambient : ℕ → Ambient} {calls : List (List Attempt)}
    {connection : Connection} {ep : Epoll} {stale : Stale} {called : Buffer}
    (hserve : ServeCalls ambient calls connection ep stale called)
    (hformed : ¬ Malformed
      (frameParser.remainder (connection.inputbuffer.buf ++ calls.flatMap bytesRead))) :
    ¬ Malformed called.buf := by
  induction hserve with
  | now hdrain =>
    intro hmalformed
    apply hformed
    obtain ⟨consumed, -, hadvance⟩ := hdrain.advances
    rw [List.flatMap_cons, ← List.append_assoc]
    change frameParser.Advances (_ ++ bytesRead _) _ _ at hadvance
    rw [(hadvance.append _).remainder_eq]
    exact malformed_remainder_append hmalformed _
  | later hcall _ ih =>
    apply ih
    obtain ⟨consumed, hadvance⟩ := onmessage_advances hcall
    rwa [List.flatMap_cons, ← List.append_assoc, (hadvance.append _).remainder_eq] at hformed

/-- Bytes read one at a time. -/
def bytewise (input : Bytes) : List Attempt := input.map fun byte ↦ some ⟨[byte], by simp⟩

@[simp] theorem bytesRead_bytewise (input : Bytes) : bytesRead (bytewise input) = input := by
  induction input with
  | nil => rfl
  | cons byte rest ih =>
    change byte :: bytesRead (bytewise rest) = byte :: rest
    rw [ih]

/-- A call that brings exactly one frame to an empty buffer leaves it empty. -/
theorem onmessage_of_single (ambient : Ambient) {connection : Connection} (ep : Epoll)
    (hempty : connection.inputbuffer.buf = []) {front payload : Bytes}
    (hfront : frameParser.next front = some (payload, [])) :
    ∃ next events, onmessage ambient (callResults (bytewise front)) connection ep =
      .ok (.returned next ep events) ∧ next.inputbuffer.buf = [] := by
  have hbuffer : (received connection (bytewise front)).inputbuffer.buf = front := by
    simp [received, hempty]
  have hnil : frameParser.next [] = none := rfl
  have hremainder : frameParser.remainder front = [] := by
    rw [StreamParser.remainder_of_some hfront, StreamParser.remainder_of_none hnil]
  have hitems : frameParser.items front = [payload] := by
    rw [StreamParser.items_of_some hfront, StreamParser.items_of_none hnil]
  rw [onmessage_callResults]
  obtain ⟨dispatched, left, -, hcases⟩ :=
    drain_cases ambient 0 (received connection (bytewise front))
  rw [hbuffer] at hcases
  rcases hcases with ⟨hadvance, hdone, -, hok⟩ | ⟨hadvance, hok⟩ | ⟨hadvance, hmalformed, -⟩
  · refine ⟨_, _, by rw [hok], ?_⟩
    have hleft := hadvance.remainder_eq
    rw [hremainder, StreamParser.remainder_of_none hdone] at hleft
    exact hleft.symm
  · refine ⟨_, _, by rw [hok], ?_⟩
    have hcount := congrArg List.length hadvance.items_eq
    simp only [hitems, List.length_append, List.length_cons, List.length_nil] at hcount
    have hnone : frameParser.items left = [] := List.length_eq_zero_iff.mp (by omega)
    have hleft := hadvance.remainder_eq
    rw [hremainder,
      StreamParser.remainder_of_none (StreamParser.items_eq_nil_iff.mp hnone)] at hleft
    exact hleft.symm
  · have hleft := hadvance.remainder_eq
    rw [hremainder, StreamParser.remainder_of_none (next_of_malformed hmalformed)] at hleft
    rw [← hleft] at hmalformed
    exact hmalformed.elim

/-- Bytes whose greedy parse stops at a malformed header can be split so that `getmessage` is called
on it. -/
theorem exists_malformed_call (ep : Epoll) (input : Bytes) :
    ∀ (ambient : ℕ → Ambient) (connection : Connection), connection.inputbuffer.buf = [] →
      Malformed (frameParser.remainder input) →
        ∃ calls stale called, calls.flatMap bytesRead = input ∧
          ServeCalls ambient calls connection ep stale called ∧ Malformed called.buf := by
  induction input using StreamParser.parse_induction frameParser with
  | hnone input hnext =>
    intro ambient connection hempty hmalformed
    rw [StreamParser.remainder_of_none hnext] at hmalformed
    exact ⟨[bytewise input], _, _, by simp, .now (.first 0 _), by simpa [received, hempty]⟩
  | hsome input payload rest hnext ih =>
    intro ambient connection hempty hmalformed
    rw [StreamParser.remainder_of_some hnext] at hmalformed
    obtain ⟨front, rfl, hfront⟩ := exists_front_of_next hnext
    obtain ⟨next, events, hcall, hleft⟩ := onmessage_of_single (ambient 0) ep hempty hfront
    obtain ⟨calls, stale, called, hbytes, hserve, hcalled⟩ :=
      ih (fun index ↦ ambient (index + 1)) next hleft hmalformed
    exact ⟨bytewise front :: calls, stale, called, by simp [hbytes], .later hcall hserve, hcalled⟩

/-- For a connection with an empty buffer, every call of `getmessage` is safe on every split of a
byte sequence into reads and calls of `onmessage`, exactly when the greedy parse of the sequence
does not stop at a malformed header. -/
theorem safe_iff {connection : Connection} (hempty : connection.inputbuffer.buf = [])
    (ep : Epoll) (input : Bytes) :
    (∀ ambient calls stale called, calls.flatMap bytesRead = input →
      ServeCalls ambient calls connection ep stale called → SafeCall stale called) ↔
        ¬ Malformed (frameParser.remainder input) := by
  constructor
  · intro hsafe hmalformed
    obtain ⟨calls, stale, called, hbytes, hserve, hcalled⟩ :=
      exists_malformed_call ep input (fun _ ↦ .still) connection hempty hmalformed
    exact (safeCall_iff stale called).mp (hsafe _ calls stale called hbytes hserve) hcalled
  · intro hformed ambient calls stale called hbytes hserve
    refine (safeCall_iff stale called).mpr (hserve.formed ?_)
    rwa [hempty, List.nil_append, hbytes]

/-- A frame and a part of a header of `2 ^ 31 - 1` are parsed safely. -/
theorem safe_frame :
    ¬ Malformed (frameParser.remainder [1, 0, 0, 0, 97, 255, 255, 255]) ∧
      ∀ ambient calls stale called, calls.flatMap bytesRead = [1, 0, 0, 0, 97, 255, 255, 255] →
        ServeCalls ambient calls (published 1 7 0) .epollCreate stale called →
          SafeCall stale called := by
  have hformed : ¬ Malformed (frameParser.remainder [1, 0, 0, 0, 97, 255, 255, 255]) := by
    decide +kernel
  exact ⟨hformed, (safe_iff rfl _ _).mpr hformed⟩

/-- A header of `-1` makes the constructor of the payload throw. -/
theorem not_safe_minusOne :
    (∀ stale, getmessage stale ⟨[255, 255, 255, 255]⟩ = .error .lengthError) ∧
      ¬ ∀ ambient calls stale called, calls.flatMap bytesRead = [255, 255, 255, 255] →
        ServeCalls ambient calls (published 1 7 0) .epollCreate stale called →
          SafeCall stale called := by
  have hlen : NativeInt.decodeInt 255 255 255 255 = -1 := by decide
  refine ⟨fun stale ↦ ?_, fun hsafe ↦ ?_⟩
  · rw [getmessage, header_cons, hlen]
    decide
  have hcall : SafeCall (fun _ ↦ 0) ⟨[255, 255, 255, 255]⟩ :=
    hsafe (fun _ ↦ .still) [bytewise [255, 255, 255, 255]] _ _ rfl (.now (.first 0 _))
  exact (safeCall_iff _ _).mp hcall (by decide)

/-! ### Frames received before the peer's close -/

/-- A connection whose channel has the right registration flag. -/
structure Attached where
  connection : Connection
  ep : Epoll
  flag : connection.clientchannel.FlagMirrors ep

/-- Every listed frame is passed to the message callback before `closeClient` is called. -/
def PassedBeforeClose (frames : List Bytes) (events : List Event) : Prop :=
  ∃ before after, events = before ++ .closeClient :: after ∧
    (frames.map Event.messagecallback).Sublist before

/-- A call that ends with a zero `read` takes the channel out and closes, without a drain. -/
theorem onmessage_eof (ambient : Ambient) (attempts : List Attempt) (attached : Attached) :
    ∃ final, onmessage ambient (attempts.map readResult ++ [.eof]) attached.connection attached.ep =
      .ok (.returned final
        (attached.ep.register attached.connection.clientchannel.fd
          ⟨0, attached.connection.clientchannel.this⟩)
        (.closeClient ::
          if attached.connection.closecallback then [.closecallback] else [])) := by
  have hremove : (received attached.connection attempts).clientchannel.remove attached.ep = _ :=
    Channel.remove_of_flagMirrors attached.flag
  rw [onmessage_attempts, onmessage, hremove]
  exact ⟨_, rfl⟩

/-- No frame is passed on in a trace that begins with `closeClient`. -/
theorem eq_nil_of_passedBeforeClose {frames : List Bytes} {closecallback : Bool}
    (hpassed : PassedBeforeClose frames
      (.closeClient :: if closecallback then [.closecallback] else [])) : frames = [] := by
  obtain ⟨before, after, hevents, hsublist⟩ := hpassed
  cases before with
  | nil => simpa using hsublist
  | cons event rest =>
    rw [List.cons_append, List.cons.injEq] at hevents
    obtain ⟨-, hrest⟩ := hevents
    have hmem : Event.closeClient ∈ rest ++ .closeClient :: after := by simp
    rw [← hrest] at hmem
    split at hmem <;> simp at hmem

/-- A call that ends with a zero `read` passes nothing on before it closes. -/
theorem eq_nil_of_onmessage_eof {ambient : Ambient} {attempts : List Attempt}
    {attached : Attached} {final : Connection} {ep : Epoll} {events : List Event}
    {frames : List Bytes}
    (hreturned : onmessage ambient (attempts.map readResult ++ [.eof]) attached.connection
      attached.ep = .ok (.returned final ep events))
    (hpassed : PassedBeforeClose frames events) : frames = [] := by
  obtain ⟨closed, hclosed⟩ := onmessage_eof ambient attempts attached
  rw [hclosed] at hreturned
  cases hreturned
  exact eq_nil_of_passedBeforeClose hpassed

/-- When a call of `onmessage` ends with a zero `read`, the complete frames of the buffer and of the
bytes read are passed on before `closeClient` exactly when there are none. -/
theorem passedBeforeClose_iff (ambient : Ambient) (attempts : List Attempt) (attached : Attached) :
    (∃ final ep events,
      onmessage ambient (attempts.map readResult ++ [.eof]) attached.connection attached.ep =
          .ok (.returned final ep events) ∧
        PassedBeforeClose (frameParser.items
          (attached.connection.inputbuffer.buf ++ bytesRead attempts)) events) ↔
      frameParser.items (attached.connection.inputbuffer.buf ++ bytesRead attempts) = [] := by
  constructor
  · rintro ⟨final, ep, events, hreturned, hpassed⟩
    exact eq_nil_of_onmessage_eof hreturned hpassed
  · intro hnone
    obtain ⟨closed, hclosed⟩ := onmessage_eof ambient attempts attached
    refine ⟨_, _, _, hclosed, [], _, rfl, ?_⟩
    rw [hnone]
    exact List.Sublist.refl []

/-- One frame read in the call that also sees the end of the stream is not passed on. -/
theorem not_passedBeforeClose_frame :
    let attached : Attached :=
      ⟨published 1 7 0, Epoll.epollCreate.register 7 ⟨EPOLLET ||| EPOLLIN, 1⟩, rfl⟩
    let attempts : List Attempt := [some ⟨encode [97], by decide⟩]
    ¬ ∃ final ep events,
      onmessage .still (attempts.map readResult ++ [.eof]) attached.connection attached.ep =
          .ok (.returned final ep events) ∧
        PassedBeforeClose (frameParser.items
          (attached.connection.inputbuffer.buf ++ bytesRead attempts)) events := by
  intro attached attempts
  rintro ⟨final, ep, events, hreturned, hpassed⟩
  have hnone := eq_nil_of_onmessage_eof hreturned hpassed
  have hidle : frameParser.next (encode [97]) = none := StreamParser.items_eq_nil_iff.mp hnone
  cases hidle

end Reactor.MessageFraming
