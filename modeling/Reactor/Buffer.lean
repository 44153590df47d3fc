import Reactor.NativeInt
import Reactor.Library.StreamParser
import Mathlib.Algebra.Group.Nat.Defs
import Mathlib.Tactic.Common

/-!
# The buffer and its framing

`Buffer` holds the bytes received from, or to be sent to, one peer. A message travels as a frame:
the four bytes of an `int` length, then that many bytes. `Buffer.getmessage` reads one message off
the front of a buffer, and says that no complete message is in front by returning the string
`" "` (`noMessage`).

The header is copied out of the storage of `buf` without a look at its size. `byteAt` is that
storage: the characters, the terminating NUL at index `size`, and past it whatever the allocation
holds (`Stale`). The sum `len + 4` is computed in `int`, where an overflow is undefined behaviour,
and a negative `len` that passes the size test becomes a huge string length, for which the string
constructor throws `std::length_error`; `Fault` has one constructor for each.

`frameParser` is the framing itself, as an incremental parser: a frame is in front of a list when
its header is between `0` and `2 ^ 31 - 5` and all its bytes are there. `Malformed` are the inputs
whose header makes `getmessage` fail. `getmessage_of_next`, `getmessage_of_incomplete` and
`getmessage_of_malformed` are the three cases of `getmessage` in these terms, whatever the stale
bytes are.
-/

set_option autoImplicit false
set_option relaxedAutoImplicit false

namespace Reactor

open NativeInt Library

/-- The bytes the storage of a string holds past its terminator, by index. -/
abbrev Stale := ℕ → UInt8

/-- How a call to `Buffer::getmessage` can fail. -/
inductive Fault
  /-- `len + 4` leaves the range of `int`. -/
  | signedOverflow
  /-- The string constructor is given more than `max_size()` characters. -/
  | lengthError
  deriving DecidableEq

structure Buffer where
  buf : Bytes
  deriving DecidableEq

namespace Buffer

def append (buffer : Buffer) (data : Bytes) : Buffer := ⟨buffer.buf ++ data⟩

def erase (buffer : Buffer) (pos num : ℕ) : Buffer :=
  ⟨buffer.buf.take pos ++ buffer.buf.drop (pos + num)⟩

def size (buffer : Buffer) : ℕ := buffer.buf.length

def data (buffer : Buffer) : Bytes := buffer.buf

/-- The byte at an index of the storage of `buf`: a character, the terminator, or a stale byte. -/
def byteAt (stale : Stale) (buffer : Buffer) (index : ℕ) : UInt8 :=
  buffer.buf.getD index (if index = buffer.size then 0 else stale index)

/-- The `int` that `memcpy(&len, buf.data(), 4)` reads. -/
def header (stale : Stale) (buffer : Buffer) : ℤ :=
  decodeInt (buffer.byteAt stale 0) (buffer.byteAt stale 1) (buffer.byteAt stale 2)
    (buffer.byteAt stale 3)

/-- What `getmessage` returns when no complete message is in front: the string `" "`. -/
def noMessage : Bytes := [32]

def getmessage (stale : Stale) (buffer : Buffer) : Except Fault (Bytes × Buffer) :=
  let len := buffer.header stale
  if INT_MAX < len + 4 then .error .signedOverflow
  else if buffer.size < sizeOfInt (len + 4) then .ok (noMessage, buffer)
  else if len < 0 then .error .lengthError
  else .ok ((buffer.data.drop 4).take len.toNat, buffer.erase 0 (sizeOfInt (len + 4)))

@[simp] theorem buf_append (buffer : Buffer) (data : Bytes) :
    (buffer.append data).buf = buffer.buf ++ data := rfl

@[simp] theorem append_nil (buffer : Buffer) : buffer.append [] = buffer := by simp [append]

theorem append_append (buffer : Buffer) (first second : Bytes) :
    (buffer.append first).append second = buffer.append (first ++ second) := by
  simp [append]

/-! ### The framing -/

/-- A message as it travels: the bytes of its length, then its own. -/
def encode (payload : Bytes) : Bytes := encodeInt (intOfSize payload.length) ++ payload

/-- The longest payload whose header leaves room for `len + 4` in an `int`. -/
def maxPayload : ℤ := 2147483643

/-- The payload of the frame in front of a list and what follows it. -/
def frontFrame : Bytes → Option (Bytes × Bytes)
  | b₀ :: b₁ :: b₂ :: b₃ :: body =>
    let len := decodeInt b₀ b₁ b₂ b₃
    if 0 ≤ len ∧ len ≤ maxPayload ∧ len ≤ body.length then
      some (body.take len.toNat, body.drop len.toNat)
    else none
  | _ => none

/-- The header of a list fails `getmessage`: it makes `len + 4` overflow, or it is negative and
passes the size test. -/
def Malformed : Bytes → Prop
  | b₀ :: b₁ :: b₂ :: b₃ :: body =>
    let len := decodeInt b₀ b₁ b₂ b₃
    maxPayload < len ∨ len < 0 ∧ sizeOfInt (len + 4) ≤ body.length + 4
  | _ => False

instance : ∀ input, Decidable (Malformed input)
  | _ :: _ :: _ :: _ :: _ => inferInstanceAs (Decidable (_ ∨ _ ∧ _))
  | [] | [_] | [_, _] | [_, _, _] => .isFalse id

/-- The framing as an incremental parser. -/
def frameParser : StreamParser UInt8 Bytes where
  next := frontFrame
  shorter := by
    intro input rest payload hnext
    unfold frontFrame at hnext
    split at hnext
    · rename_i b₀ b₁ b₂ b₃ body
      dsimp only at hnext
      split_ifs at hnext
      cases hnext
      simp only [List.length_drop, List.length_cons]
      omega
    · cases hnext
  extend := by
    intro input rest payload more hnext
    unfold frontFrame at hnext
    split at hnext
    · rename_i b₀ b₁ b₂ b₃ body
      dsimp only at hnext
      split_ifs at hnext with hframe
      cases hnext
      obtain ⟨hnonneg, hmax, hlength⟩ := hframe
      have htoNat : (decodeInt b₀ b₁ b₂ b₃).toNat ≤ body.length := by omega
      have hlonger : decodeInt b₀ b₁ b₂ b₃ ≤ (body ++ more).length := by
        rw [List.length_append]
        omega
      simp only [List.cons_append, frontFrame]
      rw [if_pos ⟨hnonneg, hmax, hlonger⟩, List.take_append_of_le_length htoNat,
        List.drop_append_of_le_length htoNat]
    · cases hnext

/-- A frame in front of a list is a part of the list of its own, with nothing left over. -/
theorem exists_front_of_next {input payload rest : Bytes}
    (hnext : frameParser.next input = some (payload, rest)) :
    ∃ front, input = front ++ rest ∧ frameParser.next front = some (payload, []) := by
  change frontFrame input = some (payload, rest) at hnext
  unfold frontFrame at hnext
  split at hnext
  · rename_i b₀ b₁ b₂ b₃ body
    dsimp only at hnext
    split_ifs at hnext with hframe
    cases hnext
    refine ⟨b₀ :: b₁ :: b₂ :: b₃ :: body.take (decodeInt b₀ b₁ b₂ b₃).toNat, by simp, ?_⟩
    obtain ⟨hnonneg, hmax, hlength⟩ := hframe
    have htake : (body.take (decodeInt b₀ b₁ b₂ b₃).toNat).length =
        (decodeInt b₀ b₁ b₂ b₃).toNat := by
      rw [List.length_take]
      omega
    simp only [frameParser, frontFrame]
    rw [if_pos ⟨hnonneg, hmax, by omega⟩, List.take_of_length_le (by omega),
      List.drop_of_length_le (by omega)]
  · cases hnext

/-- The framing reads back every payload of at most `2 ^ 31 - 5` bytes. -/
theorem encodes {payload : Bytes} (hmax : (payload.length : ℤ) ≤ maxPayload) :
    frameParser.Encodes encode payload := by
  intro more
  have hint : intOfSize payload.length = payload.length := by
    refine intOfSize_of_le ?_
    unfold maxPayload at hmax
    unfold INT_MAX
    omega
  have hdecode := decodeInt_encodeInt
    (show INT_MIN ≤ (payload.length : ℤ) by unfold INT_MIN; omega)
    (show (payload.length : ℤ) ≤ INT_MAX by unfold maxPayload at hmax; unfold INT_MAX; omega)
  change frontFrame (encode payload ++ more) = some (payload, more)
  rw [encode, hint, encodeInt]
  simp only [List.cons_append, List.nil_append, frontFrame, hdecode]
  rw [if_pos ⟨by omega, hmax, by rw [List.length_append]; omega⟩]
  simp

/-! ### The three cases of `getmessage` -/

/-- With at least four characters the header is made of characters only. -/
theorem header_cons (stale : Stale) (b₀ b₁ b₂ b₃ : UInt8) (body : Bytes) :
    header stale ⟨b₀ :: b₁ :: b₂ :: b₃ :: body⟩ = decodeInt b₀ b₁ b₂ b₃ := rfl

/-- An `int` with a zero byte is away from the values `getmessage` fails on: adding four to it does
not overflow, and the sum, as a `size_t`, is greater than the index of the zero byte. -/
theorem decodeInt_nul {b₀ b₁ b₂ b₃ : UInt8} {index : ℕ}
    (hnul : index = 0 ∧ b₀ = 0 ∨ index = 1 ∧ b₁ = 0 ∨ index = 2 ∧ b₂ = 0 ∨ index = 3 ∧ b₃ = 0) :
    decodeInt b₀ b₁ b₂ b₃ + 4 ≤ INT_MAX ∧ index < sizeOfInt (decodeInt b₀ b₁ b₂ b₃ + 4) := by
  have h₀ := b₀.toNat_lt
  have h₁ := b₁.toNat_lt
  have h₂ := b₂.toNat_lt
  have h₃ := b₃.toNat_lt
  have hzero : (0 : UInt8).toNat = 0 := rfl
  unfold decodeInt toSigned sizeOfInt INT_MAX
  rcases hnul with ⟨rfl, rfl⟩ | ⟨rfl, rfl⟩ | ⟨rfl, rfl⟩ | ⟨rfl, rfl⟩ <;>
    rw [hzero] <;> split_ifs <;> omega

/-- With fewer than four characters the header contains the terminator, which keeps it away from
the values `getmessage` fails on and makes it ask for more characters than there are. -/
theorem header_short (stale : Stale) {buffer : Buffer} (hshort : buffer.size < 4) :
    buffer.header stale + 4 ≤ INT_MAX ∧
      buffer.size < sizeOfInt (buffer.header stale + 4) := by
  obtain ⟨buf⟩ := buffer
  match buf with
  | [] => exact decodeInt_nul (.inl ⟨rfl, rfl⟩)
  | [_] => exact decodeInt_nul (.inr (.inl ⟨rfl, rfl⟩))
  | [_, _] => exact decodeInt_nul (.inr (.inr (.inl ⟨rfl, rfl⟩)))
  | [_, _, _] => exact decodeInt_nul (.inr (.inr (.inr ⟨rfl, rfl⟩)))
  | _ :: _ :: _ :: _ :: _ =>
    simp only [size, List.length_cons] at hshort
    omega

/-- A buffer shorter than a header holds no message, whatever the stale bytes are. -/
theorem getmessage_of_short (stale : Stale) {buffer : Buffer} (hshort : buffer.size < 4) :
    buffer.getmessage stale = .ok (noMessage, buffer) := by
  obtain ⟨hoverflow, hsize⟩ := header_short stale hshort
  rw [getmessage]
  rw [if_neg (by omega), if_pos hsize]

/-- A complete frame in front is taken off the buffer and its payload returned. -/
theorem getmessage_of_next (stale : Stale) {buffer : Buffer} {payload rest : Bytes}
    (hnext : frameParser.next buffer.buf = some (payload, rest)) :
    buffer.getmessage stale = .ok (payload, ⟨rest⟩) := by
  obtain ⟨buf⟩ := buffer
  change frontFrame buf = some (payload, rest) at hnext
  unfold frontFrame at hnext
  split at hnext
  · rename_i b₀ b₁ b₂ b₃ body
    dsimp only at hnext
    split_ifs at hnext with hframe
    cases hnext
    obtain ⟨hnonneg, hmax, hlength⟩ := hframe
    have hsize : sizeOfInt (decodeInt b₀ b₁ b₂ b₃ + 4) = (decodeInt b₀ b₁ b₂ b₃).toNat + 4 := by
      unfold maxPayload at hmax
      rw [sizeOfInt_of_nonneg (by omega) (by unfold INT_MAX; omega)]
      omega
    rw [getmessage]
    rw [header_cons, hsize, if_neg (by unfold maxPayload at hmax; unfold INT_MAX; omega),
      if_neg (by simp only [size, List.length_cons]; omega), if_neg (by omega)]
    simp [data, erase]
  · cases hnext

/-- Without a complete frame in front, and with a header that does not fail, `getmessage` reports
no message and leaves the buffer as it is. -/
theorem getmessage_of_incomplete (stale : Stale) {buffer : Buffer}
    (hnext : frameParser.next buffer.buf = none) (hformed : ¬ Malformed buffer.buf) :
    buffer.getmessage stale = .ok (noMessage, buffer) := by
  obtain ⟨buf⟩ := buffer
  change frontFrame buf = none at hnext
  unfold frontFrame at hnext
  split at hnext
  · rename_i b₀ b₁ b₂ b₃ body
    dsimp only at hnext
    split_ifs at hnext with hframe
    have hmax : decodeInt b₀ b₁ b₂ b₃ ≤ maxPayload := Int.not_lt.mp fun h ↦ hformed (.inl h)
    have hsize : size ⟨b₀ :: b₁ :: b₂ :: b₃ :: body⟩ < sizeOfInt (decodeInt b₀ b₁ b₂ b₃ + 4) := by
      by_cases hneg : decodeInt b₀ b₁ b₂ b₃ < 0
      · exact Nat.not_le.mp fun h ↦ hformed (.inr ⟨hneg, h⟩)
      · unfold maxPayload at hmax hframe
        rw [sizeOfInt_of_nonneg (by omega) (by unfold INT_MAX; omega)]
        simp only [size, List.length_cons]
        omega
    rw [getmessage]
    rw [header_cons, if_neg (by unfold maxPayload at hmax; unfold INT_MAX; omega), if_pos hsize]
  · rename_i hshort
    refine getmessage_of_short stale ?_
    match buf with
    | [] | [_] | [_, _] | [_, _, _] => simp [size]
    | b₀ :: b₁ :: b₂ :: b₃ :: body => exact absurd rfl (hshort b₀ b₁ b₂ b₃ body)

/-- A malformed header makes `getmessage` fail. -/
theorem getmessage_of_malformed (stale : Stale) {buffer : Buffer}
    (hmalformed : Malformed buffer.buf) : ∃ fault, buffer.getmessage stale = .error fault := by
  obtain ⟨buf⟩ := buffer
  unfold Malformed at hmalformed
  split at hmalformed
  · rename_i b₀ b₁ b₂ b₃ body hbuf
    change buf = b₀ :: b₁ :: b₂ :: b₃ :: body at hbuf
    subst hbuf
    rw [getmessage]
    rw [header_cons]
    rcases hmalformed with hmax | ⟨hneg, hsize⟩
    · refine ⟨.signedOverflow, if_pos ?_⟩
      unfold maxPayload at hmax
      unfold INT_MAX
      omega
    · refine ⟨.lengthError, ?_⟩
      rw [if_neg (by unfold INT_MAX; omega), if_neg (by simp only [size, List.length_cons]; omega),
        if_pos hneg]
  · exact hmalformed.elim

/-- No frame is in front of a malformed input. -/
theorem next_of_malformed {input : Bytes} (hmalformed : Malformed input) :
    frameParser.next input = none := by
  cases hnext : frameParser.next input with
  | none => rfl
  | some found =>
    have hfault : ∃ fault, getmessage (fun _ ↦ 0) ⟨input⟩ = .error fault :=
      getmessage_of_malformed _ hmalformed
    have hpayload : getmessage (fun _ ↦ 0) ⟨input⟩ = .ok (found.1, ⟨found.2⟩) :=
      getmessage_of_next _ hnext
    obtain ⟨fault, hfault⟩ := hfault
    rw [hpayload] at hfault
    cases hfault

/-- Everything a call to `getmessage` can do, whatever the stale bytes are: take the frame in front,
report no message, or fail on the header. -/
theorem getmessage_cases (stale : Stale) (buffer : Buffer) :
    (∃ payload rest, frameParser.next buffer.buf = some (payload, rest) ∧
      buffer.getmessage stale = .ok (payload, ⟨rest⟩)) ∨
    (frameParser.next buffer.buf = none ∧ ¬ Malformed buffer.buf ∧
      buffer.getmessage stale = .ok (noMessage, buffer)) ∨
    (Malformed buffer.buf ∧ ∃ fault, buffer.getmessage stale = .error fault) := by
  by_cases hmalformed : Malformed buffer.buf
  · exact .inr (.inr ⟨hmalformed, getmessage_of_malformed stale hmalformed⟩)
  · cases hnext : frameParser.next buffer.buf with
    | none =>
      exact .inr (.inl ⟨rfl, hmalformed, getmessage_of_incomplete stale hnext hmalformed⟩)
    | some found => exact .inl ⟨found.1, found.2, rfl, getmessage_of_next stale hnext⟩

/-- A call that returns anything but `" "` has taken bytes off the buffer. -/
theorem getmessage_shrinks {stale : Stale} {buffer rest : Buffer} {message : Bytes}
    (hcall : buffer.getmessage stale = .ok (message, rest)) (hmessage : message ≠ noMessage) :
    rest.size < buffer.size := by
  rcases getmessage_cases stale buffer with
    ⟨payload, left, hnext, hok⟩ | ⟨_, _, hok⟩ | ⟨_, fault, herror⟩
  · rw [hok] at hcall
    cases hcall
    exact frameParser.shorter hnext
  · rw [hok] at hcall
    cases hcall
    exact absurd rfl hmessage
  · rw [herror] at hcall
    cases hcall

/-- In a list shorter than any string can be, a malformed header is one that makes `len + 4`
overflow, or one between `-4` and `-1`. -/
theorem malformed_iff {b₀ b₁ b₂ b₃ : UInt8} {body : Bytes} (hfits : body.length < 2 ^ 63) :
    Malformed (b₀ :: b₁ :: b₂ :: b₃ :: body) ↔
      maxPayload < decodeInt b₀ b₁ b₂ b₃ ∨
        -4 ≤ decodeInt b₀ b₁ b₂ b₃ ∧ decodeInt b₀ b₁ b₂ b₃ ≤ -1 := by
  have hrange := decodeInt_range b₀ b₁ b₂ b₃
  unfold INT_MIN INT_MAX at hrange
  simp only [Malformed, sizeOfInt]
  omega

/-- A malformed header stays malformed when more bytes arrive. -/
theorem Malformed.append {input : Bytes} (hmalformed : Malformed input) (more : Bytes) :
    Malformed (input ++ more) := by
  unfold Malformed at hmalformed
  split at hmalformed
  · simp only [List.cons_append, Malformed, List.length_append]
    rcases hmalformed with hmax | ⟨hneg, hsize⟩
    · exact .inl hmax
    · exact .inr ⟨hneg, by omega⟩
  · exact hmalformed.elim

/-- A malformed header in front is never parsed away. -/
theorem malformed_remainder_append {input : Bytes} (hmalformed : Malformed input) (more : Bytes) :
    Malformed (frameParser.remainder (input ++ more)) := by
  have hstays := hmalformed.append more
  rwa [StreamParser.remainder_of_none (next_of_malformed hstays)]

/-- The greedy parse of encoded payloads gives the payloads. -/
theorem items_encodeAll {payloads : List Bytes}
    (hmax : ∀ payload ∈ payloads, (payload.length : ℤ) ≤ maxPayload) :
    frameParser.items (payloads.flatMap encode) = payloads := by
  have hnil : frameParser.next [] = none := rfl
  have hitems := StreamParser.items_encodeAll_append
    (fun payload hpayload ↦ encodes (hmax payload hpayload)) []
  rwa [List.append_nil, StreamParser.items_of_none hnil, List.append_nil] at hitems

/-- The greedy parse of encoded payloads leaves nothing over. -/
theorem remainder_encodeAll {payloads : List Bytes}
    (hmax : ∀ payload ∈ payloads, (payload.length : ℤ) ≤ maxPayload) :
    frameParser.remainder (payloads.flatMap encode) = [] := by
  have hnil : frameParser.next [] = none := rfl
  have hremainder := StreamParser.remainder_encodeAll_append
    (fun payload hpayload ↦ encodes (hmax payload hpayload)) []
  rwa [List.append_nil, StreamParser.remainder_of_none hnil] at hremainder

/-- The greedy parse of a first part of encoded payloads does not stop at a malformed header. -/
theorem formed_of_encodeAll {payloads : List Bytes}
    (hmax : ∀ payload ∈ payloads, (payload.length : ℤ) ≤ maxPayload) {front more : Bytes}
    (hfront : front ++ more = payloads.flatMap encode) :
    ¬ Malformed (frameParser.remainder front) := by
  intro hmalformed
  have hwhole := malformed_remainder_append hmalformed more
  rw [← StreamParser.remainder_append, hfront, remainder_encodeAll hmax] at hwhole
  exact hwhole

end Buffer

end Reactor
