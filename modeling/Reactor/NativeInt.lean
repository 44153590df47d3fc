import Mathlib.Data.Int.Notation
import Mathlib.Data.Nat.Notation
import Mathlib.Tactic.SplitIfs

/-!
# Native integers and their bytes

The code keeps lengths in two machine types: `int`, 32 bits and signed, and `size_t`, 64 bits and
unsigned. An `int` is an integer here, and the two conversions are explicit: `sizeOfInt` converts
an `int` to a `size_t` (modulo `2 ^ 64`, so a negative value becomes a huge one), and `intOfSize`
narrows a `size_t` to an `int` (modulo `2 ^ 32`, read as two's complement).

`decodeInt` reads the four little-endian bytes `memcpy` copies into an `int`, and `encodeInt`
writes them. `decodeInt_encodeInt` is the round trip on the range of the type.
-/

set_option autoImplicit false
set_option relaxedAutoImplicit false

namespace Reactor

/-- A byte string, the contents of a `std::string`. -/
abbrev Bytes := List UInt8

namespace NativeInt

/-- The largest `int`. -/
def INT_MAX : ℤ := 2147483647

/-- The smallest `int`. -/
def INT_MIN : ℤ := -2147483648

/-- Two's complement reading of a 32-bit word. -/
def toSigned (word : ℕ) : ℤ :=
  if word < 2147483648 then (word : ℤ) else (word : ℤ) - 4294967296

/-- The `int` whose four bytes in memory are the given ones, lowest first. -/
def decodeInt (b₀ b₁ b₂ b₃ : UInt8) : ℤ :=
  toSigned (b₀.toNat + 256 * b₁.toNat + 65536 * b₂.toNat + 16777216 * b₃.toNat)

/-- The four bytes of an `int` in memory, lowest first. -/
def encodeInt (value : ℤ) : Bytes :=
  let word := (value % 4294967296).toNat
  [UInt8.ofNat word, UInt8.ofNat (word / 256), UInt8.ofNat (word / 65536),
    UInt8.ofNat (word / 16777216)]

/-- An `int` converted to `size_t`. -/
def sizeOfInt (value : ℤ) : ℕ := (value % 18446744073709551616).toNat

/-- A `size_t` narrowed to `int`. -/
def intOfSize (size : ℕ) : ℤ := toSigned (size % 4294967296)

/-- Every four bytes are an `int` of the type's range. -/
theorem decodeInt_range (b₀ b₁ b₂ b₃ : UInt8) :
    INT_MIN ≤ decodeInt b₀ b₁ b₂ b₃ ∧ decodeInt b₀ b₁ b₂ b₃ ≤ INT_MAX := by
  have h₀ := b₀.toNat_lt
  have h₁ := b₁.toNat_lt
  have h₂ := b₂.toNat_lt
  have h₃ := b₃.toNat_lt
  unfold decodeInt toSigned INT_MIN INT_MAX
  split_ifs <;> omega

/-- An `int` is read back from the bytes it is stored in. -/
theorem decodeInt_encodeInt {value : ℤ} (hmin : INT_MIN ≤ value) (hmax : value ≤ INT_MAX) :
    decodeInt (UInt8.ofNat (value % 4294967296).toNat)
      (UInt8.ofNat ((value % 4294967296).toNat / 256))
      (UInt8.ofNat ((value % 4294967296).toNat / 65536))
      (UInt8.ofNat ((value % 4294967296).toNat / 16777216)) = value := by
  unfold INT_MIN at hmin
  unfold INT_MAX at hmax
  simp only [decodeInt, toSigned, UInt8.toNat_ofNat']
  split_ifs <;> omega

/-- A nonnegative `int` keeps its value as a `size_t`. -/
theorem sizeOfInt_of_nonneg {value : ℤ} (hnonneg : 0 ≤ value) (hmax : value ≤ INT_MAX) :
    sizeOfInt value = value.toNat := by
  unfold INT_MAX at hmax
  unfold sizeOfInt
  omega

/-- A `size_t` in the range of `int` keeps its value when narrowed. -/
theorem intOfSize_of_le {size : ℕ} (hmax : (size : ℤ) ≤ INT_MAX) : intOfSize size = size := by
  unfold INT_MAX at hmax
  unfold intOfSize toSigned
  split_ifs <;> omega

end NativeInt

end Reactor
