import Reactor.Connection
import Reactor.Library.TransitionSystem

/-!
# Output and the wish to write

`send_inloop` appends to the output buffer and asks for `EPOLLOUT`; `send_client` offers the buffer
to the kernel, takes off what was sent and, when nothing is left, stops asking and calls the
completion callback, which may call `send_inloop` again. `step` is any sequence of these calls on
one live connection, with any result of `::send`. A call of `send_client` that comes to its callback
is `calling` until it returns; the calls of `send_inloop` in between are those of the callback.

`interest_in_step` is what holds after every call: no byte is lost, a connection with something to
send asks for it in its channel and in the epoll instance, and the other events are left alone.
-/

set_option autoImplicit false
set_option relaxedAutoImplicit false

namespace Reactor.WriteInterest

open Library

structure State where
  connection : Connection
  ep : Epoll
  /-- The bytes `::send` has accepted. -/
  accepted : Bytes
  /-- The messages given to `send_inloop`. -/
  given : List Bytes
  /-- `send_client` is in its completion callback. -/
  calling : Bool

/-- A call, or the return of the completion callback; `writen` is what `::send` returned. -/
inductive Call
  | sendInloop (message : Bytes)
  | sendClient (writen : ℤ)
  | return

def step (state : State) : Call → Option State
  | .sendInloop message =>
    match state.connection.sendInloop message state.ep with
    | .error _ => none
    | .ok (connection, ep) =>
      some { state with connection, ep, given := state.given ++ [message] }
  | .sendClient writen =>
    if state.calling = true ∨ writen < -1 ∨ state.connection.outputbuffer.size < writen then none
    else
      match state.connection.sendClient writen state.ep with
      | .error _ => none
      | .ok (connection, ep, events) =>
        some { state with
          connection, ep
          accepted := state.accepted ++ state.connection.taken writen
          calling := decide (.sendcompletioncallback ∈ events) }
  | .return => if state.calling then some { state with calling := false } else none

/-- A connection in the epoll instance, with its completion callback set and nothing to send. -/
structure Live (state : State) : Prop where
  registered : state.ep.interest state.connection.clientchannel.fd =
    some ⟨state.connection.clientchannel.event, state.connection.clientchannel.this⟩
  inepoll : state.connection.clientchannel.inepoll = true
  callback : state.connection.sendcompletioncallback = true
  output : state.connection.outputbuffer.buf = []
  accepted : state.accepted = []
  given : state.given = []
  calling : state.calling = false

/-- The calls on a connection. -/
def system (start : State) : TransitionSystem State Call where
  initial := fun state ↦ state = start
  step := step

/-! ### The other events -/

/-- Asking for `EPOLLOUT`, or no longer asking for it, leaves the other events. -/
theorem others_or (mask : EventMask) :
    (mask ||| EPOLLOUT) &&& ~~~EPOLLOUT = mask &&& ~~~EPOLLOUT := by
  ext index hindex
  simp only [BitVec.getElem_and, BitVec.getElem_or, BitVec.getElem_not]
  cases mask[index] <;> cases EPOLLOUT[index] <;> rfl

theorem others_and (mask : EventMask) :
    (mask &&& ~~~EPOLLOUT) &&& ~~~EPOLLOUT = mask &&& ~~~EPOLLOUT := by
  rw [BitVec.and_assoc, BitVec.and_self]

/-- Events with the same other events have the same bits of a set without `EPOLLOUT`. -/
theorem and_eq_of_others {first second bits : EventMask}
    (hothers : first &&& ~~~EPOLLOUT = second &&& ~~~EPOLLOUT)
    (hbits : ~~~EPOLLOUT &&& bits = bits) : first &&& bits = second &&& bits := by
  rw [← hbits, ← BitVec.and_assoc, ← BitVec.and_assoc, hothers]

/-! ### Every call -/

/-- What holds after every call, for the events at the start. -/
structure Inv (base : EventMask) (state : State) : Prop where
  registered : state.ep.interest state.connection.clientchannel.fd =
    some ⟨state.connection.clientchannel.event, state.connection.clientchannel.this⟩
  inepoll : state.connection.clientchannel.inepoll = true
  callback : state.connection.sendcompletioncallback = true
  stream : state.accepted ++ state.connection.outputbuffer.buf = state.given.flatten
  wanted : state.connection.outputbuffer.buf ≠ [] →
    state.connection.clientchannel.event &&& EPOLLOUT ≠ 0
  others : state.connection.clientchannel.event &&& ~~~EPOLLOUT = base &&& ~~~EPOLLOUT

/-- The flag of a registered channel is right. -/
theorem Inv.flag {base : EventMask} {state : State} (hinv : Inv base state) :
    state.connection.clientchannel.FlagMirrors state.ep := by
  rw [Channel.FlagMirrors, hinv.inepoll, hinv.registered]
  rfl

/-- The connection and its entry in the epoll instance when the channel wants other events. -/
def wanting (state : State) (event : EventMask) : State :=
  { state with
    connection := { state.connection with
      clientchannel := { state.connection.clientchannel with event, inepoll := true } }
    ep := state.ep.register state.connection.clientchannel.fd
      ⟨event, state.connection.clientchannel.this⟩ }

/-- A state whose output buffer, stream and callback have changed. -/
def carrying (state : State) (output accepted : Bytes) (given : List Bytes) (calling : Bool) :
    State :=
  { state with
    connection := { state.connection with outputbuffer := ⟨output⟩ }, accepted, given, calling }

/-- What `send_inloop` leaves. -/
def appended (state : State) (message : Bytes) : State :=
  carrying (wanting state (state.connection.clientchannel.event ||| EPOLLOUT))
    (state.connection.outputbuffer.buf ++ message) state.accepted (state.given ++ [message])
    state.calling

/-- What `send_client` leaves when it comes to its callback. -/
def emptied (state : State) (writen : ℤ) : State :=
  carrying (wanting state (state.connection.clientchannel.event &&& ~~~EPOLLOUT)) []
    (state.accepted ++ state.connection.taken writen) state.given true

/-- What `send_client` leaves when something is left to send. -/
def shortened (state : State) (writen : ℤ) : State :=
  carrying state (state.connection.unsent writen)
    (state.accepted ++ state.connection.taken writen) state.given false

/-- The possible results of `::send`, outside a completion callback. -/
def CanSend (state : State) (writen : ℤ) : Prop :=
  state.calling = false ∧ -1 ≤ writen ∧ writen ≤ state.connection.outputbuffer.size

section Steps

variable {base : EventMask} {state : State}

theorem step_sendInloop (hinv : Inv base state) (message : Bytes) :
    step state (.sendInloop message) = some (appended state message) := by
  rw [step, Connection.sendInloop_of_flagMirrors message hinv.flag]
  rfl

theorem step_sendClient (hinv : Inv base state) {writen : ℤ} (hsend : CanSend state writen) :
    step state (.sendClient writen) =
      some (if state.connection.unsent writen = [] then emptied state writen
        else shortened state writen) := by
  obtain ⟨hcalling, hlow, hhigh⟩ := hsend
  have hpossible : ¬ (state.calling = true ∨ writen < -1 ∨
      state.connection.outputbuffer.size < writen) := by
    simp [hcalling, hlow, hhigh]
  have hevents : (if state.connection.sendcompletioncallback then [.sendcompletioncallback]
      else []) = [Event.sendcompletioncallback] := if_pos hinv.callback
  rw [step, if_neg hpossible, Connection.sendClient_of_flagMirrors writen hinv.flag, hevents]
  by_cases hempty : state.connection.unsent writen = []
  · rw [if_pos hempty, if_pos hempty]
    rfl
  · rw [if_neg hempty, if_neg hempty]
    rfl

/-- A call of `send_client` that returns anything had a possible result of `::send`. -/
theorem canSend_of_step {next : State} {writen : ℤ}
    (hstep : step state (.sendClient writen) = some next) : CanSend state writen := by
  simp only [step] at hstep
  split_ifs at hstep with himpossible
  simp only [not_or, Bool.not_eq_true, Int.not_lt] at himpossible
  exact himpossible

theorem Inv.appended (hinv : Inv base state) (message : Bytes) :
    Inv base (appended state message) where
  registered := Function.update_self _ _ _
  inepoll := rfl
  callback := hinv.callback
  stream := by
    have hflatten : (state.given ++ [message]).flatten = state.given.flatten ++ message := by simp
    change state.accepted ++ (state.connection.outputbuffer.buf ++ message) =
      (state.given ++ [message]).flatten
    rw [hflatten, ← hinv.stream, List.append_assoc]
  wanted := fun _ ↦ out_or_out _
  others := (others_or _).trans hinv.others

theorem Inv.emptied (hinv : Inv base state) {writen : ℤ}
    (hempty : state.connection.unsent writen = []) : Inv base (emptied state writen) where
  registered := Function.update_self _ _ _
  inepoll := rfl
  callback := hinv.callback
  stream := by
    have hall := state.connection.taken_append_unsent writen
    rw [hempty, List.append_nil] at hall
    change state.accepted ++ state.connection.taken writen ++ [] = state.given.flatten
    rw [List.append_nil, hall, hinv.stream]
  wanted := fun hne ↦ absurd rfl hne
  others := (others_and _).trans hinv.others

theorem Inv.shortened (hinv : Inv base state) {writen : ℤ}
    (hleft : state.connection.unsent writen ≠ []) : Inv base (shortened state writen) where
  registered := hinv.registered
  inepoll := hinv.inepoll
  callback := hinv.callback
  stream := by
    change state.accepted ++ state.connection.taken writen ++ state.connection.unsent writen =
      state.given.flatten
    rw [List.append_assoc, Connection.taken_append_unsent, hinv.stream]
  wanted := by
    refine fun _ ↦ hinv.wanted fun hempty ↦ hleft ?_
    rw [Connection.unsent, hempty, List.drop_nil]
  others := hinv.others

theorem Inv.step {next : State} {call : Call} (hinv : Inv base state)
    (hstep : step state call = some next) : Inv base next := by
  cases call with
  | sendInloop message =>
    rw [step_sendInloop hinv message] at hstep
    cases hstep
    exact hinv.appended message
  | sendClient writen =>
    rw [step_sendClient hinv (canSend_of_step hstep)] at hstep
    cases hstep
    split_ifs with hempty
    · exact hinv.emptied hempty
    · exact hinv.shortened hempty
  | «return» =>
    simp only [WriteInterest.step] at hstep
    split_ifs at hstep
    cases hstep
    exact ⟨hinv.registered, hinv.inepoll, hinv.callback, hinv.stream, hinv.wanted, hinv.others⟩

theorem Live.inv {start : State} (hlive : Live start) :
    Inv start.connection.clientchannel.event start where
  registered := hlive.registered
  inepoll := hlive.inepoll
  callback := hlive.callback
  stream := by rw [hlive.accepted, hlive.output, hlive.given]; rfl
  wanted := fun hne ↦ absurd hlive.output hne
  others := rfl

theorem inv_of_reachable {start : State} (hlive : Live start)
    (hreach : (system start).Reachable state) :
    Inv start.connection.clientchannel.event state := by
  refine hreach.invariant (Inv start.connection.clientchannel.event) ?_
    fun _ _ _ hinv _ hstep ↦ hinv.step hstep
  rintro first rfl
  exact hlive.inv

/-- After any calls on a live connection: what `::send` accepted and the output buffer are together
the messages given to `send_inloop`, in order; something to send is wanted in the channel and in the
epoll instance; reading and edge-triggering are as at the start in both; every further call
succeeds; and a call of `send_client` comes to its callback exactly when nothing is left to send,
and then writing is no longer wanted in either. -/
theorem interest_in_step {start : State} (hlive : Live start)
    (hreach : (system start).Reachable state) :
    state.accepted ++ state.connection.outputbuffer.buf = state.given.flatten ∧
    (∃ registration, state.ep.interest state.connection.clientchannel.fd = some registration ∧
      (state.connection.outputbuffer.buf ≠ [] →
        state.connection.clientchannel.event &&& EPOLLOUT ≠ 0 ∧
          registration.mask &&& EPOLLOUT ≠ 0) ∧
      ∀ bit, bit = EPOLLIN ∨ bit = EPOLLET →
        state.connection.clientchannel.event &&& bit =
            start.connection.clientchannel.event &&& bit ∧
          registration.mask &&& bit = start.connection.clientchannel.event &&& bit) ∧
    (∀ message, ∃ next, step state (.sendInloop message) = some next) ∧
    ∀ writen, CanSend state writen → ∃ next, step state (.sendClient writen) = some next ∧
      (next.calling = true ↔ state.connection.unsent writen = []) ∧
      (next.calling = true →
        next.connection.outputbuffer.buf = [] ∧
        next.connection.clientchannel.event &&& EPOLLOUT = 0 ∧
        ∃ registration, next.ep.interest next.connection.clientchannel.fd = some registration ∧
          registration.mask &&& EPOLLOUT = 0) := by
  have hinv := inv_of_reachable hlive hreach
  refine ⟨hinv.stream, ⟨_, hinv.registered, fun hne ↦ ⟨hinv.wanted hne, hinv.wanted hne⟩, ?_⟩,
    fun message ↦ ⟨_, step_sendInloop hinv message⟩, fun writen hsend ↦ ?_⟩
  · intro bit hbit
    have hbits : ~~~EPOLLOUT &&& bit = bit := by
      rcases hbit with rfl | rfl <;> decide
    have hsame := and_eq_of_others hinv.others hbits
    exact ⟨hsame, hsame⟩
  · refine ⟨_, step_sendClient hinv hsend, ?_⟩
    split_ifs with hempty
    · exact ⟨iff_of_true rfl hempty, fun _ ↦ ⟨rfl, out_and_not_out _,
        ⟨state.connection.clientchannel.event &&& ~~~EPOLLOUT,
          state.connection.clientchannel.this⟩,
        Function.update_self _ _ _, out_and_not_out _⟩⟩
    · exact ⟨iff_of_false nofun hempty, nofun⟩

/-- A connection as its constructor and the four setters leave it. -/
def start : State where
  connection := .published 1 7 0
  ep := Epoll.epollCreate.register 7 ⟨EPOLLET ||| EPOLLIN, 1⟩
  accepted := []
  given := []
  calling := false

theorem start_live : Live start := ⟨rfl, rfl, rfl, rfl, rfl, rfl, rfl⟩

/-- A message is sent in two parts; the completion callback gives another one, and an empty one. -/
theorem interest_in_step_callback :
    ∃ state, (system start).Reachable state ∧ state.accepted = [97, 98, 99] ∧
      state.accepted ++ state.connection.outputbuffer.buf = state.given.flatten ∧
      state.connection.clientchannel.event &&& EPOLLOUT ≠ 0 := by
  have hreach : ∃ state, (system start).Reachable state ∧ state.accepted = [97, 98, 99] ∧
      state.connection.outputbuffer.buf = [100] :=
    ⟨_, .of_run (.initial rfl) [.sendInloop [97, 98, 99], .sendClient 2, .sendClient (-1),
      .sendClient 1, .sendInloop [100], .sendInloop [], .return] rfl, rfl, rfl⟩
  obtain ⟨state, hstate, haccepted, houtput⟩ := hreach
  obtain ⟨hstream, ⟨registration, -, hwanted, -⟩, -⟩ := interest_in_step start_live hstate
  exact ⟨state, hstate, haccepted, hstream, (hwanted (by rw [houtput]; nofun)).1⟩

end Steps

end Reactor.WriteInterest
