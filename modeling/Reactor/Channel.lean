import Reactor.Epoll
import Mathlib.Tactic.Common

/-!
# Channels

A `Channel` is one descriptor with the events it wants (`event`), the events last reported for it
(`revent`) and a flag `inepoll` that is meant to say whether the descriptor is in the epoll
instance of its loop. `Epoll.updatechannel` chooses between `EPOLL_CTL_ADD` and `EPOLL_CTL_MOD` by
that flag, and a failing `epollCtl` ends the program (`ProgramExit`).

`FlagMirrors` says that the flag is right. Every call but `remove` keeps it, and never fails
(`updatechannel_of_flagMirrors`). `Channel.remove` clears the flag before it asks
`Epoll.removechannel` for the deletion, which then finds the flag cleared and deletes nothing: the
descriptor stays in the instance with an empty mask (`remove_of_flagMirrors`). So a sequence of
calls on a new channel keeps the flag, the mask and the instance in step exactly when it contains
no `remove` (`inStep_iff`).
-/

set_option autoImplicit false
set_option relaxedAutoImplicit false

namespace Reactor

/-- The program printed a message with an error number and called `exit(-1)`. -/
structure ProgramExit where
  message : String
  errno : Errno
  deriving DecidableEq

structure Channel where
  /-- The address of the object. -/
  this : ℕ
  fd : Fd
  inepoll : Bool
  event : EventMask
  revent : EventMask
  deriving DecidableEq

namespace Epoll

def updatechannel (ep : Epoll) (ch : Channel) : Except ProgramExit (Channel × Epoll) :=
  if ch.inepoll then
    match ep.epollCtl .EPOLL_CTL_MOD ch.fd ⟨ch.event, ch.this⟩ with
    | .error errno => .error ⟨"epoll_ctl_mod failed", errno⟩
    | .ok next => .ok (ch, next)
  else
    match ep.epollCtl .EPOLL_CTL_ADD ch.fd ⟨ch.event, ch.this⟩ with
    | .error errno => .error ⟨"epoll_ctl_add failed", errno⟩
    | .ok next => .ok ({ ch with inepoll := true }, next)

def removechannel (ep : Epoll) (ch : Channel) : Except ProgramExit (Channel × Epoll) :=
  if ch.inepoll then
    match ep.epollCtl .EPOLL_CTL_DEL ch.fd ⟨ch.event, ch.this⟩ with
    | .error errno => .error ⟨"epoll_ctl_del failed(0)", errno⟩
    | .ok next => .ok (ch, next)
  else .ok (ch, ep)

end Epoll

namespace Channel

/-- The constructor: a channel that has not been added anywhere. -/
def new (this : ℕ) (fd : Fd) : Channel := ⟨this, fd, false, 0, 0⟩

def useET (ch : Channel) : Channel := { ch with event := ch.event ||| EPOLLET }

def setoutepoll (ch : Channel) : Channel := { ch with inepoll := false }

def setrevents (ch : Channel) (ev : EventMask) : Channel := { ch with revent := ev }

def enabreading (ch : Channel) (ep : Epoll) : Except ProgramExit (Channel × Epoll) :=
  ep.updatechannel { ch with event := ch.event ||| EPOLLIN }

def enabwriting (ch : Channel) (ep : Epoll) : Except ProgramExit (Channel × Epoll) :=
  ep.updatechannel { ch with event := ch.event ||| EPOLLOUT }

def disabreading (ch : Channel) (ep : Epoll) : Except ProgramExit (Channel × Epoll) :=
  ep.updatechannel { ch with event := ch.event &&& ~~~EPOLLIN }

def disabwriting (ch : Channel) (ep : Epoll) : Except ProgramExit (Channel × Epoll) :=
  ep.updatechannel { ch with event := ch.event &&& ~~~EPOLLOUT }

def disableall (ch : Channel) (ep : Epoll) : Except ProgramExit (Channel × Epoll) :=
  ep.updatechannel { ch with event := 0 }

def remove (ch : Channel) (ep : Epoll) : Except ProgramExit (Channel × Epoll) :=
  match ch.disableall ep with
  | .error failure => .error failure
  | .ok (disabled, next) => next.removechannel disabled.setoutepoll

/-- Which handler `handleevent` runs for a set of reported events. -/
inductive Branch
  | close
  | read
  | write
  | error
  deriving DecidableEq

/-- The `if`/`else if` chain of `handleevent`. -/
def handleevent (revent : EventMask) : Branch :=
  if revent &&& EPOLLRDHUP != 0 then .close
  else if revent &&& (EPOLLIN ||| EPOLLPRI) != 0 then .read
  else if revent &&& EPOLLOUT != 0 then .write
  else .error

/-! ### The flag and the epoll instance -/

/-- The flag of a channel says whether its descriptor is in the epoll instance. -/
def FlagMirrors (ch : Channel) (ep : Epoll) : Prop :=
  ch.inepoll = (ep.interest ch.fd).isSome

/-- With the right flag `updatechannel` succeeds: the channel is in the instance with the events it
wants. -/
theorem updatechannel_of_flagMirrors (ch : Channel) {ep : Epoll} (hflag : FlagMirrors ch ep) :
    ep.updatechannel ch =
      .ok ({ ch with inepoll := true }, ep.register ch.fd ⟨ch.event, ch.this⟩) := by
  obtain ⟨this, fd, inepoll, event, revent⟩ := ch
  unfold FlagMirrors at hflag
  unfold Epoll.updatechannel Epoll.epollCtl
  cases hentry : ep.interest fd with
  | none =>
    have hout : inepoll = false := by simpa [hentry] using hflag
    subst hout
    simp
  | some registration =>
    have hin : inepoll = true := by simpa [hentry] using hflag
    subst hin
    simp

/-- A registered channel has the right flag. -/
theorem flagMirrors_register (ch : Channel) (ep : Epoll) (registration : Registration) :
    FlagMirrors { ch with inepoll := true } (ep.register ch.fd registration) := by
  simp [FlagMirrors]

/-- With the right flag `remove` empties the registered mask, clears the flag and deletes
nothing. -/
theorem remove_of_flagMirrors {ch : Channel} {ep : Epoll} (hflag : FlagMirrors ch ep) :
    ch.remove ep =
      .ok ({ ch with event := 0, inepoll := false }, ep.register ch.fd ⟨0, ch.this⟩) := by
  unfold remove disableall
  rw [updatechannel_of_flagMirrors { ch with event := 0 } hflag]
  rfl

/-- A new channel is added, edge-triggered, for reading. -/
theorem enabreading_useET_new (this : ℕ) {fd : Fd} {ep : Epoll} (hfree : ep.interest fd = none) :
    (new this fd).useET.enabreading ep =
      .ok (⟨this, fd, true, EPOLLET ||| EPOLLIN, 0⟩,
        ep.register fd ⟨EPOLLET ||| EPOLLIN, this⟩) := by
  have hevent : (0 : EventMask) ||| EPOLLET = EPOLLET := BitVec.zero_or
  simp only [enabreading, useET, new, hevent]
  exact updatechannel_of_flagMirrors ⟨this, fd, false, EPOLLET ||| EPOLLIN, 0⟩
    (by simp [FlagMirrors, hfree])

/-! ### Sequences of calls -/

/-- A call that changes what a channel wants, or takes it out of its loop. -/
inductive Call
  | useET
  | enabreading
  | enabwriting
  | disabreading
  | disabwriting
  | disableall
  | remove
  deriving DecidableEq

/-- One call on a channel of an epoll instance. -/
def call (ch : Channel) (ep : Epoll) : Call → Except ProgramExit (Channel × Epoll)
  | .useET => .ok (ch.useET, ep)
  | .enabreading => ch.enabreading ep
  | .enabwriting => ch.enabwriting ep
  | .disabreading => ch.disabreading ep
  | .disabwriting => ch.disabwriting ep
  | .disableall => ch.disableall ep
  | .remove => ch.remove ep

/-- What is to hold after a call: the flag is right, a registered mask is the wanted one after
every call but `useET`, and a removed descriptor is not in the instance. -/
structure StepHolds (made : Call) (ch : Channel) (ep : Epoll) : Prop where
  flag : ch.inepoll = true ↔ ep.interest ch.fd ≠ none
  mask : made ≠ .useET → ∀ registration, ep.interest ch.fd = some registration →
    registration.mask = ch.event
  removed : made = .remove → ep.interest ch.fd = none

/-- No call of a sequence ends the program, and `StepHolds` after each. -/
def InStep (ch : Channel) (ep : Epoll) : List Call → Prop
  | [] => True
  | made :: rest =>
    ∃ next epNext, ch.call ep made = .ok (next, epNext) ∧ StepHolds made next epNext ∧
      InStep next epNext rest

/-- A successful `updatechannel` after any change of the wanted events meets `StepHolds`. -/
theorem stepHolds_register {made : Call} (hmade : made ≠ .remove) (ch : Channel) (ep : Epoll) :
    StepHolds made { ch with inepoll := true } (ep.register ch.fd ⟨ch.event, ch.this⟩) where
  flag := by simp
  mask := by
    intro _ registration hentry
    simp only [Epoll.interest_register, Function.update_self, Option.some.injEq] at hentry
    rw [← hentry]
  removed := fun hremove ↦ absurd hremove hmade

/-- Every call but `remove` succeeds on a channel with the right flag, meets `StepHolds` and leaves
the flag right. -/
theorem call_of_flagMirrors {ch : Channel} {ep : Epoll} (hflag : FlagMirrors ch ep) {made : Call}
    (hmade : made ≠ .remove) :
    ∃ next epNext, ch.call ep made = .ok (next, epNext) ∧ StepHolds made next epNext ∧
      FlagMirrors next epNext := by
  have hupdate : ∀ wanted : EventMask,
      ep.updatechannel { ch with event := wanted } =
        .ok ({ ch with event := wanted, inepoll := true },
          ep.register ch.fd ⟨wanted, ch.this⟩) :=
    fun wanted ↦ updatechannel_of_flagMirrors { ch with event := wanted } hflag
  have hregistered : ∀ wanted : EventMask,
      StepHolds made { ch with event := wanted, inepoll := true }
          (ep.register ch.fd ⟨wanted, ch.this⟩) ∧
        FlagMirrors { ch with event := wanted, inepoll := true }
          (ep.register ch.fd ⟨wanted, ch.this⟩) :=
    fun wanted ↦ ⟨stepHolds_register hmade { ch with event := wanted } ep,
      flagMirrors_register { ch with event := wanted } ep _⟩
  cases made with
  | useET =>
    refine ⟨ch.useET, ep, rfl, ⟨?_, fun h ↦ absurd rfl h, fun h ↦ absurd h hmade⟩, hflag⟩
    unfold FlagMirrors at hflag
    change ch.inepoll = true ↔ ep.interest ch.fd ≠ none
    rw [hflag, Option.isSome_iff_ne_none]
  | remove => exact absurd rfl hmade
  | enabreading | enabwriting | disabreading | disabwriting | disableall =>
    exact ⟨_, _, hupdate _, hregistered _⟩

/-- After a `remove` the descriptor is still in the instance, so `StepHolds` fails. -/
theorem not_stepHolds_of_remove {ch next : Channel} {ep epNext : Epoll}
    (hflag : FlagMirrors ch ep) (hcall : ch.call ep .remove = .ok (next, epNext)) :
    ¬ StepHolds .remove next epNext := by
  intro hholds
  change ch.remove ep = .ok (next, epNext) at hcall
  rw [remove_of_flagMirrors hflag] at hcall
  cases hcall
  have hgone := hholds.removed rfl
  simp at hgone

/-- From a channel with the right flag, a sequence of calls stays in step exactly when it contains
no `remove`. -/
theorem inStep_iff_of_flagMirrors {ch : Channel} {ep : Epoll} (hflag : FlagMirrors ch ep)
    (calls : List Call) : InStep ch ep calls ↔ Call.remove ∉ calls := by
  induction calls generalizing ch ep with
  | nil => simp [InStep]
  | cons made rest ih =>
    by_cases hmade : made = .remove
    · subst hmade
      refine iff_of_false ?_ (by simp)
      rintro ⟨next, epNext, hcall, hholds, _⟩
      exact not_stepHolds_of_remove hflag hcall hholds
    · obtain ⟨next, epNext, hcall, hholds, hnext⟩ := call_of_flagMirrors hflag hmade
      have hmem : Call.remove ∉ made :: rest ↔ Call.remove ∉ rest := by
        simp [List.mem_cons, Ne.symm hmade]
      rw [hmem, ← ih hnext]
      constructor
      · rintro ⟨other, epOther, hother, _, hrest⟩
        rw [hcall] at hother
        cases hother
        exact hrest
      · exact fun hrest ↦ ⟨next, epNext, hcall, hholds, hrest⟩

/-- A channel that has not been added anywhere, on a descriptor that is not in the instance, stays
in step over a sequence of calls exactly when the sequence contains no `remove`. -/
theorem inStep_iff (this : ℕ) {fd : Fd} {ep : Epoll} (hfree : ep.interest fd = none)
    (calls : List Call) : InStep (new this fd) ep calls ↔ Call.remove ∉ calls :=
  inStep_iff_of_flagMirrors (by simp [FlagMirrors, new, hfree]) calls

theorem inStep_enable_disable :
    Epoll.epollCreate.interest 7 = none ∧
      (InStep (new 1 7) Epoll.epollCreate [.useET, .enabreading, .enabwriting, .disableall] ↔
        Call.remove ∉ [Call.useET, .enabreading, .enabwriting, .disableall]) :=
  ⟨rfl, inStep_iff 1 rfl _⟩

/-- A second `remove` ends the program: the descriptor the first one left in the instance is added
again. -/
theorem not_inStep_remove_remove :
    (¬ InStep (new 1 7) Epoll.epollCreate [.enabreading, .remove, .remove]) ∧
      (do let (added, ep) ← (new 1 7).enabreading Epoll.epollCreate
          let (removed, ep) ← added.remove ep
          removed.remove ep) = .error ⟨"epoll_ctl_add failed", EEXIST⟩ := by
  have hflag : FlagMirrors (new 1 7) Epoll.epollCreate := rfl
  refine ⟨?_, rfl⟩
  rw [inStep_iff_of_flagMirrors hflag]
  decide

end Channel

end Reactor
