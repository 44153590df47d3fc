import Reactor.ReplyPipeline

/-!
# Replies to the longest requests

`Handledata` frames its reply as a peer frames a request: it narrows the length to an `int` and
writes its bytes in front. The reply is six bytes longer than the request, and the two sides of a
frame are not bounded alike. `getmessage` returns payloads of up to `2 ^ 31 - 5` bytes
(`isPayload_iff`), since it adds four to the header in `int`; the encoder writes whatever length it
is given, modulo `2 ^ 32`.

`Agrees` is what the two are to do for one message: nothing wraps, and the reply is read back, with
everything behind it left over. It holds exactly when the reply itself is a payload `getmessage` can
return, that is, up to `2 ^ 31 - 11` bytes of the message (`agrees_iff`). Of the six lengths above
that, `getmessage` overflows on the reply to four, and takes the header of the reply to the other
two for the one of an incomplete frame, for good (`getmessage_framed_of_long`).
-/

set_option autoImplicit false
set_option relaxedAutoImplicit false

namespace Reactor.ReplyFraming

open Library NativeInt Buffer ReplyPipeline

/-- `getmessage` takes a frame with this payload off some buffer. -/
def IsPayload (message : Bytes) : Prop :=
  ∃ stale buffer rest, getmessage stale buffer = .ok (message, rest) ∧ rest ≠ buffer

/-- The string `Handledata` makes of a message. -/
def reply (message : Bytes) : Bytes := replyHead ++ message

/-- An empty buffer to which the frame of a reply has been appended, and then more. -/
def framed (message more : Bytes) : Buffer :=
  ((⟨[]⟩ : Buffer).append (handledata message)).append more

/-- The encoder and the decoder agree on the reply to a message: its size is kept by the conversion
to `int`, the sum `len + 4` does not overflow, and exactly the reply is read back. -/
structure Agrees (message : Bytes) : Prop where
  size : intOfSize (reply message).length = (reply message).length
  sum : ∀ stale more, (framed message more).header stale + 4 ≤ INT_MAX
  decoded : ∀ stale more,
    (framed message more).getmessage stale = .ok (reply message, ⟨more⟩)

/-! ### What `getmessage` can return -/

/-- The payload of a frame has at most `2 ^ 31 - 5` bytes. -/
theorem length_le_of_next {input payload rest : Bytes}
    (hnext : frameParser.next input = some (payload, rest)) :
    (payload.length : ℤ) ≤ maxPayload := by
  change frontFrame input = some (payload, rest) at hnext
  unfold frontFrame at hnext
  split at hnext
  · dsimp only at hnext
    split_ifs at hnext with hframe
    cases hnext
    obtain ⟨hnonneg, hmax, -⟩ := hframe
    rw [List.length_take]
    omega
  · cases hnext

/-- A string is the payload of some frame exactly when it has at most `2 ^ 31 - 5` bytes. -/
theorem isPayload_iff (message : Bytes) :
    IsPayload message ↔ (message.length : ℤ) ≤ maxPayload := by
  constructor
  · rintro ⟨stale, buffer, rest, hcall, hrest⟩
    rcases getmessage_cases stale buffer with
      ⟨payload, left, hnext, hok⟩ | ⟨-, -, hok⟩ | ⟨-, fault, herror⟩
    · rw [hok] at hcall
      cases hcall
      exact length_le_of_next hnext
    · rw [hok] at hcall
      cases hcall
      exact absurd rfl hrest
    · rw [herror] at hcall
      cases hcall
  · intro hmax
    have hnext : frameParser.next (encode message ++ []) = some (message, []) := encodes hmax []
    refine ⟨fun _ ↦ 0, ⟨encode message ++ []⟩, ⟨[]⟩, getmessage_of_next _ hnext, ?_⟩
    simp [encode, encodeInt]

/-! ### The frame of a reply -/

theorem length_reply (message : Bytes) : (reply message).length = message.length + 6 := by
  rw [reply, List.length_append, Nat.add_comm]
  rfl

theorem buf_framed (message more : Bytes) : (framed message more).buf =
    encode (reply message) ++ more := rfl

/-- The header of a reply is its size, narrowed to an `int`. -/
theorem header_framed (stale : Stale) (message more : Bytes) :
    (framed message more).header stale = intOfSize (reply message).length := by
  have hrange : INT_MIN ≤ intOfSize (reply message).length ∧
      intOfSize (reply message).length ≤ INT_MAX := by
    unfold intOfSize toSigned INT_MIN INT_MAX
    split_ifs <;> omega
  exact decodeInt_encodeInt hrange.1 hrange.2

theorem size_framed (message more : Bytes) :
    (framed message more).size = message.length + more.length + 10 := by
  rw [Buffer.size, buf_framed, encode, List.length_append, List.length_append, length_reply]
  simp only [encodeInt, List.length_cons, List.length_nil]
  omega

/-- What `getmessage` does with the reply to a request of one of the six greatest lengths. It adds
past the greatest `int`; or the header is negative and so is the sum, and as long as a string can be
it holds too few characters. -/
theorem getmessage_framed_of_long (stale : Stale) {message more : Bytes}
    (hmin : 2147483637 < message.length) (hmax : (message.length : ℤ) ≤ maxPayload)
    (hfits : (framed message more).size < 2 ^ 63) :
    (framed message more).getmessage stale =
      if message.length ≤ 2147483641 then .error .signedOverflow
      else .ok (noMessage, framed message more) := by
  unfold maxPayload at hmax
  rw [getmessage]
  rw [header_framed, length_reply]
  by_cases hlength : message.length ≤ 2147483641
  · have hlen : intOfSize (message.length + 6) = (message.length + 6 : ℕ) :=
      intOfSize_of_le (by unfold INT_MAX; omega)
    rw [if_pos hlength, hlen]
    exact if_pos (by unfold INT_MAX; omega)
  · have hlen : intOfSize (message.length + 6) = (message.length : ℤ) + 6 - 4294967296 := by
      unfold intOfSize toSigned
      split_ifs <;> omega
    have htooFew : (framed message more).size < sizeOfInt (intOfSize (message.length + 6) + 4) := by
      rw [hlen, sizeOfInt]
      omega
    rw [if_neg hlength, if_neg (by rw [hlen]; unfold INT_MAX; omega), if_pos htooFew]

/-- The encoder and the decoder agree on the reply to a message exactly when the message has at most
`2 ^ 31 - 11` bytes. -/
theorem agrees_iff (message : Bytes) : Agrees message ↔ message.length ≤ 2147483637 := by
  have hlength := length_reply message
  constructor
  · intro hagrees
    -- What is read back is a payload, and so has a bounded length.
    have hpayload : IsPayload (reply message) := by
      refine ⟨fun _ ↦ 0, framed message [], ⟨[]⟩, hagrees.decoded _ _, ?_⟩
      intro hempty
      have hsize := size_framed message []
      rw [← hempty, Buffer.size, List.length_nil] at hsize
      omega
    have hmax := (isPayload_iff _).mp hpayload
    unfold maxPayload at hmax
    omega
  · intro hmax
    have hsize : intOfSize (reply message).length = (reply message).length :=
      intOfSize_of_le (by unfold INT_MAX; omega)
    refine ⟨hsize, fun stale more ↦ ?_, fun stale more ↦ ?_⟩
    · rw [header_framed, hsize]
      unfold INT_MAX
      omega
    · have hencodes : frameParser.Encodes encode (reply message) :=
        encodes (by unfold maxPayload; omega)
      exact getmessage_of_next stale (hencodes more)

/-- `getmessage` can return a request of `2 ^ 31 - 5` bytes. It then finds no message in the frame
of the reply, which stays in the buffer. -/
theorem not_agrees_longest :
    let longest : Bytes := List.replicate 2147483643 0
    IsPayload longest ∧ ¬ Agrees longest ∧
      ∀ stale, (framed longest []).getmessage stale = .ok (noMessage, framed longest []) := by
  intro longest
  have hlength : longest.length = 2147483643 := List.length_replicate
  have hmax : (longest.length : ℤ) ≤ maxPayload := by
    rw [hlength]
    exact Int.le_refl _
  refine ⟨(isPayload_iff longest).mpr hmax, ?_, fun stale ↦ ?_⟩
  · rw [agrees_iff, hlength]
    omega
  · have hfits : (framed longest []).size < 2 ^ 63 := by
      rw [size_framed, hlength]
      decide
    rw [getmessage_framed_of_long stale (by omega) hmax hfits, if_neg (by omega)]

end Reactor.ReplyFraming
