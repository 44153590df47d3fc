import Reactor.MessageFraming

/-!
# Calls of `getmessage` on less than a header

`getmessage` copies four bytes out of the storage of the buffer before it looks at the size. With
fewer than four characters the copy takes in the terminator and, behind it, stale bytes. `Refuses`
is what has to happen then, whatever these bytes are: the sum `len + 4` is an `int`, the size test
holds, and no message is reported. The terminator is a zero byte, at the index that is the size,
which is enough for it (`refuses_of_short`).

`EndsRefused` says that a drain loop made such a call on the buffer it leaves; the call reports no
message, so it is the last one. A loop that consumes its whole batch ends in this way exactly when
no frame of the batch has the payload `" "` (`ends_refused_iff`): such a frame ends the loop itself.
-/

set_option autoImplicit false
set_option relaxedAutoImplicit false

namespace Reactor.ShortBuffer

open Library NativeInt Buffer Connection MessageFraming

/-- A call of `getmessage` adds without overflow, finds too few characters, and leaves the buffer
as it is. -/
structure Refuses (stale : Stale) (buffer : Buffer) : Prop where
  noOverflow : INT_MIN ≤ buffer.header stale + 4 ∧ buffer.header stale + 4 ≤ INT_MAX
  tooFew : buffer.size < sizeOfInt (buffer.header stale + 4)
  unchanged : buffer.getmessage stale = .ok (noMessage, buffer)

/-- A call on fewer than four characters refuses, whatever the characters and the stale bytes. -/
theorem refuses_of_short (stale : Stale) {buffer : Buffer} (hshort : buffer.size < 4) :
    Refuses stale buffer := by
  obtain ⟨hmax, hsize⟩ := header_short stale hshort
  have hmin : INT_MIN ≤ buffer.header stale := (decodeInt_range _ _ _ _).1
  exact ⟨⟨by omega, hmax⟩, hsize, getmessage_of_short stale hshort⟩

/-- The drain loop of a connection called `getmessage` on the buffer it left, when that was shorter
than a header, and the call refused. -/
def EndsRefused (ambient : Ambient) (connection final : Connection) : Prop :=
  final.inputbuffer.size < 4 ∧
    ∃ stale, DrainCalls ambient 0 connection.inputbuffer stale final.inputbuffer ∧
      Refuses stale final.inputbuffer

/-- The drain loop gets past frames whose payloads are not `" "`. -/
theorem drainCalls_of_advances (ambient : Ambient) {input left : Bytes} {consumed : List Bytes}
    (hadvance : frameParser.Advances input consumed left) (hnot : noMessage ∉ consumed) :
    ∀ count, ∃ stale, DrainCalls ambient count ⟨input⟩ stale ⟨left⟩ := by
  induction hadvance with
  | refl input => exact fun count ↦ ⟨_, .first count ⟨input⟩⟩
  | @cons input rest final payload consumed hnext _ ih =>
    intro count
    have hpayload : payload ≠ noMessage := (List.ne_of_not_mem_cons hnot).symm
    obtain ⟨stale, hrest⟩ := ih (List.not_mem_of_not_mem_cons hnot) (count + 1)
    have hcall : getmessage (ambient.stale count) ⟨input⟩ = .ok (payload, ⟨rest⟩) :=
      getmessage_of_next _ hnext
    exact ⟨stale, .later hcall hpayload hrest⟩

/-- A list shorter than a header has no frame. -/
theorem items_of_short {input : Bytes} (hshort : input.length < 4) :
    frameParser.items input = [] := by
  refine StreamParser.items_of_none ?_
  match input with
  | [] | [_] | [_, _] | [_, _, _] => rfl
  | _ :: _ :: _ :: _ :: _ =>
    simp only [List.length_cons] at hshort
    omega

/-- For a drain loop that consumed its batch down to less than a header: calls on less than a header
refuse, for all contents and stale bytes, and the loop ended with one, exactly when no frame of the
batch has the payload `" "`. -/
theorem ends_refused_iff {ambient : Ambient} {connection final : Connection} {events : List Event}
    (hdrain : connection.drain ambient 0 = .ok (final, events))
    (hconsumed : final.inputbuffer.size < 4) :
    ((∀ stale buffer, buffer.size < 4 → Refuses stale buffer) ∧
        EndsRefused ambient connection final) ↔
      noMessage ∉ frameParser.items connection.inputbuffer.buf := by
  have hnone : frameParser.items final.inputbuffer.buf = [] := items_of_short hconsumed
  constructor
  · -- The calls before the last one returned messages other than `" "`, and there is no frame left.
    rintro ⟨-, -, stale, hcalls, -⟩
    obtain ⟨consumed, hnot, hadvance⟩ := hcalls.advances
    rwa [hadvance.items_eq, hnone, List.append_nil]
  · intro hnot
    refine ⟨fun stale buffer ↦ refuses_of_short stale, hconsumed, ?_⟩
    obtain ⟨dispatched, left, hdispatched, hcases⟩ := drain_cases ambient 0 connection
    rcases hcases with ⟨hadvance, -, -, hok⟩ | ⟨hadvance, -⟩ | ⟨-, -, fault, herror⟩
    · rw [hok] at hdrain
      cases hdrain
      obtain ⟨stale, hcalls⟩ := drainCalls_of_advances ambient hadvance hdispatched 0
      exact ⟨stale, hcalls, refuses_of_short stale hconsumed⟩
    · refine absurd ?_ hnot
      rw [hadvance.items_eq]
      simp
    · rw [herror] at hdrain
      cases hdrain

/-- The drain loop of a batch of one frame, with the payload `"a"`, ends with a call on the empty
buffer. -/
theorem ends_refused_frame :
    let connection := { published 1 7 0 with inputbuffer := ⟨encode [97]⟩ }
    ∃ final events, connection.drain .still 0 = .ok (final, events) ∧
      final.inputbuffer.size < 4 ∧ noMessage ∉ frameParser.items (encode [97]) ∧
      EndsRefused .still connection final := by
  intro connection
  have hfirst : connection.inputbuffer.getmessage (Ambient.still.stale 0) = .ok ([97], ⟨[]⟩) := rfl
  have hdrain : connection.drain .still 0 =
      .ok ({ connection with inputbuffer := ⟨[]⟩ }, [.messagecallback [97]]) := by
    rw [drain_of_message hfirst (by decide), drain_of_noMessage rfl]
    rfl
  have hitems : noMessage ∉ frameParser.items (encode [97]) := by decide +kernel
  exact ⟨_, _, hdrain, by decide, hitems, ((ends_refused_iff hdrain (by decide)).mpr hitems).2⟩

/-- A batch of one frame with the payload `" "` is consumed, and the loop ends without a call on the
empty buffer. -/
theorem not_ends_refused_noMessage :
    let connection := { published 1 7 0 with inputbuffer := ⟨encode noMessage⟩ }
    ∃ final events, connection.drain .still 0 = .ok (final, events) ∧
      final.inputbuffer.buf = [] ∧ ¬ EndsRefused .still connection final := by
  intro connection
  have hcall : connection.inputbuffer.getmessage (Ambient.still.stale 0) =
      .ok (noMessage, ⟨[]⟩) := rfl
  refine ⟨_, _, drain_of_noMessage hcall, rfl, ?_⟩
  rintro ⟨-, stale, hcalls, -⟩
  cases hcalls with
  | later hfirst hmessage _ =>
    rw [hcall] at hfirst
    cases hfirst
    exact hmessage rfl

end Reactor.ShortBuffer
