import Mathlib.Logic.Function.Basic
import Mathlib.Data.Nat.Notation

/-!
# Epoll instances

The kernel side of the event loops. An epoll instance (`Epoll`, the class is its descriptor) is a
partial map from descriptors to a registered mask and the channel pointer stored with it
(`interest`), together with the readiness of every file (`level`) and the ready list (`ready`).

`epollCtl` adds, modifies or deletes an entry: `EPOLL_CTL_ADD` fails when the descriptor is
present, `EPOLL_CTL_MOD` and `EPOLL_CTL_DEL` when it is absent. Adding and modifying put the
descriptor on the ready list when a registered bit is ready at that moment (`register`). `raise` is
an edge: bits of a file become ready, and a descriptor registered for one of them enters the ready
list. `take` is what `epoll_wait` does with a descriptor it reports: the report is the registered
bits that are ready (`report`), and an edge-triggered descriptor leaves the list. Hang-ups and
errors are reported whether registered or not. `close` is the removal of the entry when the
descriptor is closed.
-/

set_option autoImplicit false
set_option relaxedAutoImplicit false

namespace Reactor

/-- A file descriptor. -/
abbrev Fd := ℕ

/-- A set of epoll events, a `uint32_t`. -/
abbrev EventMask := BitVec 32

def EPOLLIN : EventMask := 0x001
def EPOLLPRI : EventMask := 0x002
def EPOLLOUT : EventMask := 0x004
def EPOLLERR : EventMask := 0x008
def EPOLLHUP : EventMask := 0x010
def EPOLLRDHUP : EventMask := 0x2000
def EPOLLET : EventMask := 0x80000000

/-- An error number. -/
abbrev Errno := ℕ

def ENOENT : Errno := 2
def EINTR : Errno := 4
def EAGAIN : Errno := 11
def EWOULDBLOCK : Errno := 11
def EEXIST : Errno := 17
def ECONNRESET : Errno := 104

/-- What is stored with a descriptor of an epoll instance. -/
structure Registration where
  /-- The registered events, `ev.events`. -/
  mask : EventMask
  /-- The address of the channel, `ev.data.ptr`. -/
  channel : ℕ
  deriving DecidableEq

structure Epoll where
  /-- The registered descriptors. -/
  interest : Fd → Option Registration
  /-- The events each file is ready for. -/
  level : Fd → EventMask
  /-- The descriptors on the ready list. -/
  ready : Fd → Bool

/-- The operation of an `epollCtl` call. -/
inductive ControlOp
  | EPOLL_CTL_ADD
  | EPOLL_CTL_MOD
  | EPOLL_CTL_DEL
  deriving DecidableEq

namespace Epoll

/-- A new instance, while no file is ready. -/
def epollCreate : Epoll := ⟨fun _ ↦ none, fun _ ↦ 0, fun _ ↦ false⟩

/-- The events of a mask that `epoll_wait` reports. -/
def reportable (mask : EventMask) : EventMask := mask ||| EPOLLERR ||| EPOLLHUP

/-- The events reported for a descriptor now. -/
def report (ep : Epoll) (fd : Fd) : EventMask :=
  match ep.interest fd with
  | none => 0
  | some registration => ep.level fd &&& reportable registration.mask

/-- Stores a registration, and puts the descriptor on the ready list when one of its events is
ready. -/
def register (ep : Epoll) (fd : Fd) (registration : Registration) : Epoll :=
  { ep with
    interest := Function.update ep.interest fd (some registration)
    ready := Function.update ep.ready fd
      (ep.ready fd || ep.level fd &&& reportable registration.mask != 0) }

/-- Drops a descriptor, on `EPOLL_CTL_DEL` or when the file is closed. -/
def close (ep : Epoll) (fd : Fd) : Epoll :=
  { ep with
    interest := Function.update ep.interest fd none
    ready := Function.update ep.ready fd false }

def epollCtl (ep : Epoll) (op : ControlOp) (fd : Fd) (registration : Registration) :
    Except Errno Epoll :=
  match op, ep.interest fd with
  | .EPOLL_CTL_ADD, none => .ok (ep.register fd registration)
  | .EPOLL_CTL_ADD, some _ => .error EEXIST
  | .EPOLL_CTL_MOD, none => .error ENOENT
  | .EPOLL_CTL_MOD, some _ => .ok (ep.register fd registration)
  | .EPOLL_CTL_DEL, none => .error ENOENT
  | .EPOLL_CTL_DEL, some _ => .ok (ep.close fd)

/-- A file becomes ready for some events. -/
def raise (ep : Epoll) (fd : Fd) (events : EventMask) : Epoll :=
  { ep with
    level := Function.update ep.level fd (ep.level fd ||| events)
    ready := Function.update ep.ready fd (ep.ready fd ||
      (match ep.interest fd with
        | none => false
        | some registration => events &&& reportable registration.mask != 0)) }

/-- A file stops being ready for some events. -/
def lower (ep : Epoll) (fd : Fd) (events : EventMask) : Epoll :=
  { ep with level := Function.update ep.level fd (ep.level fd &&& ~~~events) }

/-- `epoll_wait` takes an edge-triggered descriptor off the ready list. -/
def take (ep : Epoll) (fd : Fd) : Epoll :=
  match ep.interest fd with
  | none => ep
  | some registration =>
    if registration.mask &&& EPOLLET != 0 then
      { ep with ready := Function.update ep.ready fd false }
    else ep

@[simp] theorem interest_register (ep : Epoll) (fd : Fd) (registration : Registration) :
    (ep.register fd registration).interest =
      Function.update ep.interest fd (some registration) := rfl

@[simp] theorem level_lower (ep : Epoll) (fd : Fd) (events : EventMask) :
    (ep.lower fd events).level =
      Function.update ep.level fd (ep.level fd &&& ~~~events) := rfl

@[simp] theorem interest_take (ep : Epoll) (fd : Fd) : (ep.take fd).interest = ep.interest := by
  unfold take
  split
  · rfl
  · split <;> rfl

@[simp] theorem level_take (ep : Epoll) (fd : Fd) : (ep.take fd).level = ep.level := by
  unfold take
  split
  · rfl
  · split <;> rfl

end Epoll

/-! ### The writable bit -/

/-- A set of events has the writable one exactly when its third bit is set. -/
theorem out_iff (mask : EventMask) : mask &&& EPOLLOUT ≠ 0 ↔ mask.getLsbD 2 = true := by
  have hout : EPOLLOUT = BitVec.twoPow 32 2 := by decide
  have hne : BitVec.twoPow 32 2 ≠ 0 := by decide
  rw [hout, BitVec.and_twoPow]
  cases mask.getLsbD 2
  · simp
  · simpa using hne

theorem out_or (first second : EventMask) :
    (first ||| second) &&& EPOLLOUT ≠ 0 ↔
      first &&& EPOLLOUT ≠ 0 ∨ second &&& EPOLLOUT ≠ 0 := by
  rw [out_iff, out_iff, out_iff, BitVec.getLsbD_or, Bool.or_eq_true]

theorem out_or_out (mask : EventMask) : (mask ||| EPOLLOUT) &&& EPOLLOUT ≠ 0 :=
  (out_or mask EPOLLOUT).mpr (.inr (by decide))

/-- Taking the readable event away keeps the writable one. -/
theorem out_and_not_in (mask : EventMask) :
    (mask &&& ~~~EPOLLIN) &&& EPOLLOUT ≠ 0 ↔ mask &&& EPOLLOUT ≠ 0 := by
  have hbit : (~~~EPOLLIN).getLsbD 2 = true := by decide
  rw [out_iff, out_iff, BitVec.getLsbD_and, hbit, Bool.and_true]

theorem out_and_not_out (mask : EventMask) : (mask &&& ~~~EPOLLOUT) &&& EPOLLOUT = 0 := by
  have hbit : (~~~EPOLLOUT).getLsbD 2 = false := by decide
  by_contra hout
  have hset := (out_iff _).mp hout
  rw [BitVec.getLsbD_and, hbit, Bool.and_false] at hset
  cases hset

/-- A ready writable event that is wanted is reported. -/
theorem out_report {level mask : EventMask} (hlevel : level &&& EPOLLOUT ≠ 0)
    (hmask : mask &&& EPOLLOUT ≠ 0) :
    (level &&& Epoll.reportable mask) &&& EPOLLOUT ≠ 0 := by
  rw [out_iff] at hlevel hmask ⊢
  simp only [Epoll.reportable, BitVec.getLsbD_and, BitVec.getLsbD_or, hlevel, hmask, Bool.true_or,
    Bool.true_and]

theorem ne_zero_of_out {mask : EventMask} (hout : mask &&& EPOLLOUT ≠ 0) : mask ≠ 0 := by
  rintro rfl
  exact hout rfl

/-! ### The readable bit -/

/-- A set of events has the readable one exactly when its first bit is set. -/
theorem in_iff (mask : EventMask) : mask &&& EPOLLIN ≠ 0 ↔ mask.getLsbD 0 = true := by
  have hin : EPOLLIN = BitVec.twoPow 32 0 := by decide
  have hne : BitVec.twoPow 32 0 ≠ 0 := by decide
  rw [hin, BitVec.and_twoPow]
  cases mask.getLsbD 0
  · simp
  · simpa using hne

theorem in_or (first second : EventMask) :
    (first ||| second) &&& EPOLLIN ≠ 0 ↔ first &&& EPOLLIN ≠ 0 ∨ second &&& EPOLLIN ≠ 0 := by
  rw [in_iff, in_iff, in_iff, BitVec.getLsbD_or, Bool.or_eq_true]

/-- Wanting the writable event or not, and being writable or not, is nothing to the readable one. -/
theorem in_and_not_out (mask : EventMask) :
    (mask &&& ~~~EPOLLOUT) &&& EPOLLIN ≠ 0 ↔ mask &&& EPOLLIN ≠ 0 := by
  have hbit : (~~~EPOLLOUT).getLsbD 0 = true := by decide
  rw [in_iff, in_iff, BitVec.getLsbD_and, hbit, Bool.and_true]

theorem in_and_not_in (mask : EventMask) : (mask &&& ~~~EPOLLIN) &&& EPOLLIN = 0 := by
  have hbit : (~~~EPOLLIN).getLsbD 0 = false := by decide
  by_contra hin
  have hset := (in_iff _).mp hin
  rw [BitVec.getLsbD_and, hbit, Bool.and_false] at hset
  cases hset

/-- A ready readable event that is wanted is reported. -/
theorem in_report {level mask : EventMask} (hlevel : level &&& EPOLLIN ≠ 0)
    (hmask : mask &&& EPOLLIN ≠ 0) : (level &&& Epoll.reportable mask) &&& EPOLLIN ≠ 0 := by
  rw [in_iff] at hlevel hmask ⊢
  simp only [Epoll.reportable, BitVec.getLsbD_and, BitVec.getLsbD_or, hlevel, hmask, Bool.true_or,
    Bool.true_and]

theorem ne_zero_of_in {mask : EventMask} (hin : mask &&& EPOLLIN ≠ 0) : mask ≠ 0 := by
  rintro rfl
  exact hin rfl

end Reactor
