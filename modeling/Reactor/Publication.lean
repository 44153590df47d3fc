import Reactor.MessageFraming
import Reactor.Library.TransitionSystem

/-!
# Publication of a new connection

`Tcpserver::newconnection` runs on the main thread. Its first step, the constructor, already
registers the descriptor with the epoll instance of a sub-loop, whose thread may handle events of it
while the main thread puts the object into the map and sets its four callbacks. A callback that is
not set yet is skipped.

`step` interleaves the six steps of `newconnection` with the arrival of bytes, of the end of the
stream and of errors, and with the sub-loop: `epoll_wait` and the branch it takes, every `read`,
every iteration of the drain loop, and the parts of a close. The peer sends frames with payloads of
at most `2 ^ 31 - 5` bytes.

`Complete` is what a fully published connection is to be served like: when the sub-loop is back from
its handler every complete frame it read has been handled, once and in order, and a close it saw has
removed the entry from the map and deleted the object. It holds in every run whose steps are
`Published`: a frame is taken out of the buffer only when the message callback is set and its
payload is not `" "`, the callback of a close is looked at only after `newconnection` has returned,
and the end of the stream is read only when no complete frame is in the buffer
(`complete_of_published`).
-/

set_option autoImplicit false
set_option relaxedAutoImplicit false

namespace Reactor.Publication

open Library Buffer

/-- What the thread of the sub-loop is doing for the connection. -/
inductive Phase
  /-- It is in `epoll_wait`, or handles another channel. -/
  | waiting
  /-- It is in the outer loop of `onmessage`. -/
  | reading
  /-- It is in the inner loop of `onmessage`. -/
  | draining
  /-- It is in `close_client` or `error_client`, before the test of the callback. -/
  | closing (failed : Bool)
  /-- It is in `closeconnection` or `errorconnection`, before the `erase`. -/
  | erasing
  /-- It is past the `erase`, before the `delete`. -/
  | deleting
  | closed
  deriving DecidableEq

structure State where
  /-- The number of steps `newconnection` has made. -/
  setup : ℕ
  connection : Connection
  ep : Epoll
  /-- The object is in `connections`. -/
  inserted : Bool
  deleted : Bool
  phase : Phase
  /-- What the peer has not sent yet. -/
  unsent : Bytes
  /-- What has arrived and has not been read. -/
  inbound : Bytes
  /-- The end of the stream has arrived. -/
  fin : Bool
  /-- All bytes read. -/
  read : Bytes
  /-- The messages passed to the message callback. -/
  handled : List Bytes

inductive Label
  | newconnection (now : ℤ)
  | arrive (count : ℕ)
  | shutdown
  | fail
  | epollWait (writen : ℤ)
  | sendInloop (message : Bytes)
  | read (count : ℕ)
  | interrupted
  | again
  | eof
  | drain (stale : Stale) (now : ℤ)
  | callback
  | erase
  | delete

section Steps

variable (this : ℕ) (fd : Fd)

/-- The next step of `newconnection`. -/
def newconnection (state : State) (now : ℤ) : Option State :=
  match state.setup with
  | 0 =>
    match Connection.new this fd now state.ep with
    | .error _ => none
    | .ok (connection, ep) => some { state with setup := 1, connection, ep }
  | 1 => some { state with setup := 2, inserted := true }
  | 2 => some { state with setup := 3, connection := state.connection.setclosecallback true }
  | 3 => some { state with setup := 4, connection := state.connection.seterrorcallback true }
  | 4 => some { state with setup := 5, connection := state.connection.setmessagecallback true }
  | 5 =>
    some { state with setup := 6, connection := state.connection.setsendcompletioncallback true }
  | _ => none

/-- `remove` on the channel, and the first part of `close_client` or `error_client`. -/
def close (state : State) (failed : Bool) : Option State :=
  match state.connection.clientchannel.remove state.ep with
  | .error _ => none
  | .ok (clientchannel, ep) =>
    some { state with
      connection := { state.connection with clientchannel, disconnect := true }
      ep
      phase := .closing failed }

/-- `epoll_wait` reports the descriptor, and the report is stored in the channel. -/
def reported (state : State) : State :=
  { state with
    ep := state.ep.take fd
    connection := { state.connection with
      clientchannel := state.connection.clientchannel.setrevents (state.ep.report fd) } }

/-- `handleevent` up to the first step of the member function it calls; `writen` is what `::send`
returns in `send_client`. -/
def handleevent (state : State) (writen : ℤ) : Option State :=
  match Channel.handleevent state.connection.clientchannel.revent with
  | .close => close state false
  | .read => some { state with phase := .reading }
  | .write =>
    match state.connection.sendClient writen state.ep with
    | .error _ => none
    | .ok (connection, ep, _) => some { state with connection, ep }
  | .error => close state true

def step (state : State) : Label → Option State
  | .newconnection now => newconnection this fd state now
  | .arrive count =>
    if state.fin = true ∨ state.unsent.length < count then none
    else
      some { state with
        unsent := state.unsent.drop count
        inbound := state.inbound ++ state.unsent.take count
        ep := state.ep.raise fd EPOLLIN }
  | .shutdown => some { state with fin := true, ep := state.ep.raise fd EPOLLIN }
  | .fail => some { state with ep := state.ep.raise fd EPOLLERR }
  | .epollWait writen =>
    if state.phase ≠ .waiting ∨ state.ep.ready fd = false ∨ state.ep.report fd = 0 then none
    else handleevent (reported fd state) writen
  | .sendInloop message =>
    if state.phase ≠ .waiting ∨ state.setup = 0 then none
    else
      match state.connection.sendInloop message state.ep with
      | .error _ => none
      | .ok (connection, ep) => some { state with connection, ep }
  | .read count =>
    if state.phase ≠ .reading ∨ count = 0 ∨ 1024 < count ∨ state.inbound.length < count then none
    else
      some { state with
        inbound := state.inbound.drop count
        read := state.read ++ state.inbound.take count
        connection := { state.connection with
          inputbuffer := state.connection.inputbuffer.append (state.inbound.take count) } }
  | .interrupted => if state.phase ≠ .reading then none else some state
  | .again =>
    if state.phase ≠ .reading ∨ state.inbound ≠ [] ∨ state.fin = true then none
    else some { state with phase := .draining, ep := state.ep.lower fd EPOLLIN }
  | .eof =>
    if state.phase ≠ .reading ∨ state.inbound ≠ [] ∨ state.fin = false then none
    else close state false
  | .drain stale now =>
    if state.phase ≠ .draining then none
    else
      match state.connection.inputbuffer.getmessage stale with
      | .error _ => none
      | .ok (message, rest) =>
        if message = noMessage then
          some { state with
            phase := .waiting
            connection := { state.connection with inputbuffer := rest } }
        else
          some { state with
            connection := { state.connection with inputbuffer := rest, lastTime := now }
            handled :=
              if state.connection.messagecallback then state.handled ++ [message]
              else state.handled }
  | .callback =>
    match state.phase with
    | .closing failed =>
      if state.connection.callbackSet failed then
        some { state with phase := .erasing }
      else some { state with phase := .waiting }
    | _ => none
  | .erase =>
    if state.phase ≠ .erasing then none
    else some { state with phase := .deleting, inserted := false }
  | .delete =>
    if state.phase ≠ .deleting then none
    else some { state with phase := .closed, deleted := true, ep := state.ep.close fd }

/-- A descriptor just accepted, on which the peer is going to send some frames. -/
structure Initial (payloads : List Bytes) (state : State) : Prop where
  setup : state.setup = 0
  unregistered : state.ep.interest fd = none
  inserted : state.inserted = false
  deleted : state.deleted = false
  phase : state.phase = .waiting
  unsent : state.unsent = payloads.flatMap encode
  inbound : state.inbound = []
  fin : state.fin = false
  read : state.read = []
  handled : state.handled = []

/-- The system, for the address of the object, its descriptor, and what the peer sends. -/
def system (payloads : List Bytes) : TransitionSystem State Label where
  initial := Initial fd payloads
  step := step this fd

end Steps

/-- A connection is served as it is to be. -/
structure Complete (state : State) : Prop where
  handled : state.phase ≠ .reading → state.phase ≠ .draining →
    state.handled = frameParser.items state.read
  seen : state.phase = .waiting → 0 < state.setup → state.connection.disconnect = false
  removed : state.phase = .closed → state.inserted = false ∧ state.deleted = true

/-- The connection is published as far as a step relies on it. -/
def Published (state : State) : Label → Prop
  | .drain _ _ => ∀ found ∈ frameParser.next state.connection.inputbuffer.buf,
      state.connection.messagecallback = true ∧ found.1 ≠ noMessage
  | .eof => frameParser.next state.connection.inputbuffer.buf = none
  | .callback => state.setup = 6
  | _ => True

instance (state : State) : ∀ label, Decidable (Published state label)
  | .drain _ _ =>
    inferInstanceAs (Decidable (∀ found ∈ frameParser.next state.connection.inputbuffer.buf,
      state.connection.messagecallback = true ∧ found.1 ≠ noMessage))
  | .eof => inferInstanceAs (Decidable (frameParser.next state.connection.inputbuffer.buf = none))
  | .callback => inferInstanceAs (Decidable (state.setup = 6))
  | .newconnection _ | .arrive _ | .shutdown | .fail | .epollWait _ | .sendInloop _ | .read _
  | .interrupted | .again | .erase | .delete => .isTrue trivial

/-! ### The invariant -/

/-- The thread of the sub-loop has not seen a close. -/
def Phase.serving : Phase → Bool
  | .waiting | .reading | .draining => true
  | _ => false

/-- The thread of the sub-loop is not between a `read` and the end of the drain loop. -/
def Phase.parsed : Phase → Bool
  | .reading | .draining => false
  | _ => true

/-- The thread of the sub-loop is past the test of the callback of a close. -/
def Phase.past : Phase → Bool
  | .erasing | .deleting | .closed => true
  | _ => false

/-- An open connection whose channel is that of its descriptor and has the right flag. -/
structure Serving (fd : Fd) (connection : Connection) (ep : Epoll) : Prop where
  connected : connection.disconnect = false
  channel : connection.clientchannel.fd = fd
  flag : connection.clientchannel.FlagMirrors ep

/-- Before the constructor nothing can be seen of the descriptor. -/
structure Fresh (fd : Fd) (state : State) : Prop where
  setup : state.setup = 0
  unregistered : state.ep.interest fd = none
  phase : state.phase = .waiting
  read : state.read = []
  handled : state.handled = []

/-- After the constructor the frames handled are those taken off the buffer, and a close that was
seen is one of a connection that is fully published. -/
structure Built (fd : Fd) (state : State) : Prop where
  setup : state.setup ≠ 0
  advances : frameParser.Advances state.read state.handled state.connection.inputbuffer.buf
  closecallback : 3 ≤ state.setup → state.connection.closecallback = true
  errorcallback : 4 ≤ state.setup → state.connection.errorcallback = true
  serving : state.phase.serving = true → Serving fd state.connection state.ep
  parsed : state.phase.parsed = true →
    frameParser.next state.connection.inputbuffer.buf = none
  published : state.phase.past = true → state.setup = 6
  erased : state.phase = .deleting ∨ state.phase = .closed → state.inserted = false
  deleted : state.phase = .closed → state.deleted = true

/-- All bytes the peer sends: those read, those that have arrived, and those to come. -/
def stream (state : State) : Bytes := state.read ++ state.inbound ++ state.unsent

/-- What holds in every state of a run of published steps. -/
structure Inv (fd : Fd) (payloads : List Bytes) (state : State) : Prop where
  stream : stream state = payloads.flatMap encode
  stage : Fresh fd state ∨ Built fd state

variable {this : ℕ} {fd : Fd} {state next : State}

/-- Once `newconnection` has returned both callbacks are set. -/
theorem Built.callbackSet (hbuilt : Built fd state) (hsetup : state.setup = 6) (failed : Bool) :
    state.connection.callbackSet failed = true := by
  cases failed
  · exact hbuilt.closecallback (by omega)
  · exact hbuilt.errorcallback (by omega)

/-- A close that is seen keeps the object built. -/
theorem Built.close (hbuilt : Built fd state) {failed : Bool}
    (hserving : Serving fd state.connection state.ep)
    (hparsed : frameParser.next state.connection.inputbuffer.buf = none)
    (hclose : close state failed = some next) : Built fd next := by
  rw [Publication.close, Channel.remove_of_flagMirrors hserving.flag] at hclose
  cases hclose
  exact { hbuilt with
    serving := fun h ↦ by cases h
    parsed := fun _ ↦ hparsed
    published := fun h ↦ by cases h
    erased := fun h ↦ by rcases h with h | h <;> cases h
    deleted := fun h ↦ by cases h }

/-- Setting callbacks and inserting the object while `newconnection` runs keeps it built. -/
theorem Built.setUp (hbuilt : Built fd state) (hsetup : state.setup < 6) {setup : ℕ}
    {connection : Connection} {inserted : Bool} (hstarted : setup ≠ 0)
    (hsame : connection.inputbuffer = state.connection.inputbuffer ∧
      connection.disconnect = state.connection.disconnect ∧
      connection.clientchannel = state.connection.clientchannel)
    (hclose : 3 ≤ setup → connection.closecallback = true)
    (herror : 4 ≤ setup → connection.errorcallback = true) :
    Built fd { state with setup, connection, inserted } := by
  obtain ⟨hinput, hdisconnect, hchannel⟩ := hsame
  have hpast : state.phase.past ≠ true := by
    intro hpast
    have hdone := hbuilt.published hpast
    omega
  refine ⟨hstarted, hinput ▸ hbuilt.advances, hclose, herror, fun hphase ↦ ?_,
    fun hphase ↦ hinput ▸ hbuilt.parsed hphase, fun hphase ↦ absurd hphase hpast, ?_,
    hbuilt.deleted⟩
  · have hserving := hbuilt.serving hphase
    exact ⟨hdisconnect.trans hserving.connected, hchannel ▸ hserving.channel,
      hchannel ▸ hserving.flag⟩
  · rintro (hphase | hphase)
    · exact absurd (by rw [hphase]; rfl) hpast
    · exact absurd (by rw [hphase]; rfl) hpast

/-- A step of `newconnection` after the constructor keeps the object built. -/
theorem Built.newconnection {now : ℤ} (hbuilt : Built fd state)
    (hstep : newconnection this fd state now = some next) : Built fd next := by
  unfold Publication.newconnection at hstep
  split at hstep
  · rename_i hsetup
    exact absurd hsetup hbuilt.setup
  · cases hstep
    exact hbuilt.setUp (by omega) (by omega) ⟨rfl, rfl, rfl⟩ (by omega) (by omega)
  · cases hstep
    exact hbuilt.setUp (by omega) (by omega) ⟨rfl, rfl, rfl⟩ (fun _ ↦ rfl) (by omega)
  · cases hstep
    refine hbuilt.setUp (by omega) (by omega) ⟨rfl, rfl, rfl⟩ (fun _ ↦ ?_) (fun _ ↦ rfl)
    exact hbuilt.closecallback (by omega)
  · cases hstep
    refine hbuilt.setUp (by omega) (by omega) ⟨rfl, rfl, rfl⟩ (fun _ ↦ ?_) (fun _ ↦ ?_)
    · exact hbuilt.closecallback (by omega)
    · exact hbuilt.errorcallback (by omega)
  · cases hstep
    refine hbuilt.setUp (by omega) (by omega) ⟨rfl, rfl, rfl⟩ (fun _ ↦ ?_) (fun _ ↦ ?_)
    · exact hbuilt.closecallback (by omega)
    · exact hbuilt.errorcallback (by omega)
  · cases hstep

/-- The constructor builds the object. -/
theorem Fresh.newconnection {now : ℤ} (hfresh : Fresh fd state)
    (hstep : newconnection this fd state now = some next) : Built fd next := by
  rw [Publication.newconnection, hfresh.setup,
    Connection.new_of_unregistered this now hfresh.unregistered] at hstep
  cases hstep
  have hphase := hfresh.phase
  refine ⟨Nat.one_ne_zero, ?_, fun h ↦ by simp at h, fun h ↦ by simp at h,
    fun _ ↦ ⟨rfl, rfl, ?_⟩, fun _ ↦ rfl, ?_, ?_, ?_⟩
  · rw [hfresh.read, hfresh.handled]
    exact .refl _
  · exact Channel.flagMirrors_register (Channel.new this fd) _ _
  · intro hpast
    rw [hphase] at hpast
    cases hpast
  · rintro (hdeleting | hclosed)
    · rw [hphase] at hdeleting
      cases hdeleting
    · rw [hphase] at hclosed
      cases hclosed
  · intro hclosed
    rw [hphase] at hclosed
    cases hclosed

/-- A change of the readiness of files keeps the right flag. -/
theorem Serving.of_interest {connection : Connection} {ep epNext : Epoll}
    (hserving : Serving fd connection ep) (hinterest : epNext.interest = ep.interest) :
    Serving fd connection epNext := by
  refine ⟨hserving.connected, hserving.channel, ?_⟩
  unfold Channel.FlagMirrors
  rw [hinterest]
  exact hserving.flag

/-- A call that serves a connection keeps it serving. -/
theorem Serving.serves {connection served : Connection} {ep epNext : Epoll}
    (hserving : Serving fd connection ep) (hserves : connection.Serves ep served epNext) :
    Serving fd served epNext :=
  ⟨hserves.disconnect.trans hserving.connected, hserves.fd.trans hserving.channel, hserves.flag⟩

/-- A step after which the sub-loop has not seen a close keeps the object built. -/
theorem Built.serve (hbuilt : Built fd state) (hsetup : next.setup = state.setup)
    (hclose : next.connection.closecallback = state.connection.closecallback)
    (herror : next.connection.errorcallback = state.connection.errorcallback)
    (hphase : next.phase.serving = true) (hserving : Serving fd next.connection next.ep)
    (hadvances : frameParser.Advances next.read next.handled next.connection.inputbuffer.buf)
    (hparsed : next.phase.parsed = true →
      frameParser.next next.connection.inputbuffer.buf = none) : Built fd next := by
  refine ⟨hsetup ▸ hbuilt.setup, hadvances, fun h ↦ ?_, fun h ↦ ?_, fun _ ↦ hserving, hparsed,
    fun h ↦ ?_, fun h ↦ ?_, fun h ↦ ?_⟩
  · rw [hclose]
    exact hbuilt.closecallback (hsetup ▸ h)
  · rw [herror]
    exact hbuilt.errorcallback (hsetup ▸ h)
  · cases hnext : next.phase <;> simp [hnext, Phase.serving, Phase.past] at hphase h
  · rcases h with h | h <;> simp [h, Phase.serving] at hphase
  · simp [h, Phase.serving] at hphase

/-- A call that serves the connection, made between two events, keeps the object built. -/
theorem Built.served (hbuilt : Built fd state) (hwaiting : state.phase = .waiting)
    {connection : Connection} {ep : Epoll}
    (hserves : state.connection.Serves state.ep connection ep) :
    Built fd { state with connection, ep } := by
  have hserving := hbuilt.serving (by rw [hwaiting]; rfl)
  refine hbuilt.serve rfl hserves.closecallback hserves.errorcallback
    (congrArg Phase.serving hwaiting) (hserving.serves hserves) ?_ fun hphase ↦ ?_
  · exact hserves.inputbuffer ▸ hbuilt.advances
  · exact hserves.inputbuffer ▸ hbuilt.parsed hphase

/-- Handling an event keeps the object built. -/
theorem Built.handleevent {writen : ℤ} (hbuilt : Built fd state) (hwaiting : state.phase = .waiting)
    (hstep : handleevent state writen = some next) : Built fd next := by
  have hserving := hbuilt.serving (by rw [hwaiting]; rfl)
  have hparsed := hbuilt.parsed (by rw [hwaiting]; rfl)
  unfold Publication.handleevent at hstep
  split at hstep
  · exact hbuilt.close hserving hparsed hstep
  · cases hstep
    refine hbuilt.serve rfl rfl rfl rfl hserving hbuilt.advances fun h ↦ ?_
    cases h
  · obtain ⟨connection, ep, events, hcall, hserves, -⟩ :=
      Connection.sendClient_serves writen hserving.flag
    rw [hcall] at hstep
    cases hstep
    exact hbuilt.served hwaiting hserves
  · exact hbuilt.close hserving hparsed hstep

/-- Storing the report keeps the object built. -/
theorem Built.reported (hbuilt : Built fd state) (hwaiting : state.phase = .waiting) :
    Built fd (reported fd state) := by
  have hserving := hbuilt.serving (by rw [hwaiting]; rfl)
  have htaken := hserving.of_interest (Epoll.interest_take state.ep fd)
  refine hbuilt.serve rfl rfl rfl ?_ ⟨htaken.connected, htaken.channel, htaken.flag⟩
    hbuilt.advances hbuilt.parsed
  exact congrArg Phase.serving hwaiting

/-- An iteration of the drain loop that loses no frame keeps the object built. -/
theorem Built.drain {stale : Stale} {now : ℤ} (hbuilt : Built fd state)
    (hpublished : Published state (.drain stale now))
    (hstep : step this fd state (.drain stale now) = some next) : Built fd next := by
  rw [Publication.step] at hstep
  by_cases hnot : state.phase = .draining
  swap
  · rw [if_pos hnot] at hstep
    cases hstep
  rw [if_neg (not_not.mpr hnot)] at hstep
  have hserving := hbuilt.serving (by rw [hnot]; rfl)
  rcases getmessage_cases stale state.connection.inputbuffer with
    ⟨payload, rest, hnext, hcall⟩ | ⟨hnext, -, hcall⟩ | ⟨-, fault, hcall⟩
  · obtain ⟨hset, hpayload⟩ := hpublished (payload, rest) hnext
    rw [hcall] at hstep
    dsimp only at hstep
    rw [if_neg hpayload, if_pos hset] at hstep
    cases hstep
    refine hbuilt.serve rfl rfl rfl (by rw [hnot]; rfl)
      ⟨hserving.connected, hserving.channel, hserving.flag⟩
      (hbuilt.advances.trans (.cons hnext (.refl rest))) ?_
    intro hparsed
    rw [hnot] at hparsed
    cases hparsed
  · rw [hcall] at hstep
    dsimp only at hstep
    rw [if_pos rfl] at hstep
    cases hstep
    exact hbuilt.serve rfl rfl rfl rfl
      ⟨hserving.connected, hserving.channel, hserving.flag⟩ hbuilt.advances fun _ ↦ hnext
  · rw [hcall] at hstep
    cases hstep

/-- A close after the publication goes on to the `erase`. -/
theorem Built.callback (hbuilt : Built fd state) (hsetup : state.setup = 6)
    (hstep : step this fd state .callback = some next) : Built fd next := by
  rw [Publication.step] at hstep
  split at hstep
  · rename_i failed hclosing
    rw [if_pos (hbuilt.callbackSet hsetup failed)] at hstep
    cases hstep
    exact { hbuilt with
      serving := fun h ↦ by cases h
      parsed := fun _ ↦ hbuilt.parsed (by rw [hclosing]; rfl)
      published := fun _ ↦ hsetup
      erased := fun h ↦ by rcases h with h | h <;> cases h
      deleted := fun h ↦ by cases h }
  · cases hstep

/-- A published step keeps the object built. -/
theorem Built.step {label : Label} (hbuilt : Built fd state) (hpublished : Published state label)
    (hstep : step this fd state label = some next) : Built fd next := by
  have hraise : ∀ events, state.phase.serving = true →
      Serving fd state.connection (state.ep.raise fd events) :=
    fun events hphase ↦ (hbuilt.serving hphase).of_interest rfl
  cases label with
  | newconnection now => exact hbuilt.newconnection hstep
  | arrive count =>
    rw [Publication.step] at hstep
    split_ifs at hstep
    cases hstep
    exact { hbuilt with serving := hraise EPOLLIN }
  | shutdown =>
    cases hstep
    exact { hbuilt with serving := hraise EPOLLIN }
  | fail =>
    cases hstep
    exact { hbuilt with serving := hraise EPOLLERR }
  | epollWait writen =>
    rw [Publication.step] at hstep
    split_ifs at hstep with hnot
    simp only [ne_eq, not_or, not_not] at hnot
    exact (hbuilt.reported hnot.1).handleevent hnot.1 hstep
  | sendInloop message =>
    rw [Publication.step] at hstep
    split_ifs at hstep with hnot
    simp only [ne_eq, not_or, not_not] at hnot
    have hserving := hbuilt.serving (by rw [hnot.1]; rfl)
    obtain ⟨connection, ep, hcall, hserves, -⟩ :=
      Connection.sendInloop_serves message hserving.flag
    rw [hcall] at hstep
    cases hstep
    exact hbuilt.served hnot.1 hserves
  | read count =>
    rw [Publication.step] at hstep
    split_ifs at hstep with hnot
    cases hstep
    simp only [ne_eq, not_or, not_not] at hnot
    have hserving := hbuilt.serving (by rw [hnot.1]; rfl)
    refine hbuilt.serve rfl rfl rfl (by rw [hnot.1]; rfl)
      ⟨hserving.connected, hserving.channel, hserving.flag⟩ (hbuilt.advances.append _) ?_
    intro hparsed
    rw [hnot.1] at hparsed
    cases hparsed
  | interrupted =>
    rw [Publication.step] at hstep
    split_ifs at hstep
    cases hstep
    exact hbuilt
  | again =>
    rw [Publication.step] at hstep
    split_ifs at hstep with hnot
    cases hstep
    simp only [ne_eq, not_or, not_not] at hnot
    have hserving := hbuilt.serving (by rw [hnot.1]; rfl)
    exact hbuilt.serve rfl rfl rfl rfl (hserving.of_interest rfl) hbuilt.advances
      (fun h ↦ by cases h)
  | eof =>
    rw [Publication.step] at hstep
    split_ifs at hstep with hnot
    simp only [ne_eq, not_or, not_not] at hnot
    exact hbuilt.close (hbuilt.serving (by rw [hnot.1]; rfl)) hpublished hstep
  | drain stale now => exact hbuilt.drain hpublished hstep
  | callback => exact hbuilt.callback hpublished hstep
  | erase =>
    rw [Publication.step] at hstep
    split_ifs at hstep with hnot
    cases hstep
    simp only [ne_eq, not_not] at hnot
    exact { hbuilt with
      serving := fun h ↦ by cases h
      parsed := fun _ ↦ hbuilt.parsed (by rw [hnot]; rfl)
      published := fun _ ↦ hbuilt.published (by rw [hnot]; rfl)
      erased := fun _ ↦ rfl
      deleted := fun h ↦ by cases h }
  | delete =>
    rw [Publication.step] at hstep
    split_ifs at hstep with hnot
    cases hstep
    simp only [ne_eq, not_not] at hnot
    exact { hbuilt with
      serving := fun h ↦ by cases h
      parsed := fun _ ↦ hbuilt.parsed (by rw [hnot]; rfl)
      published := fun _ ↦ hbuilt.published (by rw [hnot]; rfl)
      erased := fun _ ↦ hbuilt.erased (.inl hnot)
      deleted := fun _ ↦ rfl }

/-- A descriptor that is not registered stays so until the constructor runs. -/
theorem Fresh.step {label : Label} (hfresh : Fresh fd state)
    (hstep : step this fd state label = some next) : Fresh fd next ∨ Built fd next := by
  have hphase := hfresh.phase
  cases label with
  | newconnection now => exact .inr (hfresh.newconnection hstep)
  | arrive count =>
    rw [Publication.step] at hstep
    split_ifs at hstep
    cases hstep
    exact .inl { hfresh with }
  | shutdown =>
    cases hstep
    exact .inl { hfresh with }
  | fail =>
    cases hstep
    exact .inl { hfresh with }
  | epollWait writen =>
    have hreport : state.ep.report fd = 0 := by rw [Epoll.report, hfresh.unregistered]
    rw [Publication.step, if_pos (.inr (.inr hreport))] at hstep
    cases hstep
  | sendInloop message =>
    rw [Publication.step, if_pos (.inr hfresh.setup)] at hstep
    cases hstep
  | _ => simp [Publication.step, hphase] at hstep

theorem stream_newconnection {now : ℤ} (hstep : newconnection this fd state now = some next) :
    stream next = stream state := by
  unfold newconnection at hstep
  split at hstep
  · split at hstep
    · cases hstep
    · cases hstep
      rfl
  all_goals
    cases hstep
    try rfl

theorem stream_close {failed : Bool} (hstep : close state failed = some next) :
    stream next = stream state := by
  unfold close at hstep
  split at hstep
  · cases hstep
  · cases hstep
    rfl

theorem stream_handleevent {writen : ℤ} (hstep : handleevent state writen = some next) :
    stream next = stream state := by
  unfold handleevent at hstep
  split at hstep
  · exact stream_close hstep
  · cases hstep
    rfl
  · split at hstep
    · cases hstep
    · cases hstep
      rfl
  · exact stream_close hstep

/-- No step changes the bytes the peer sends in all. -/
theorem stream_step {label : Label} (hstep : step this fd state label = some next) :
    stream next = stream state := by
  cases label with
  | newconnection now => exact stream_newconnection hstep
  | arrive count =>
    rw [step] at hstep
    split_ifs at hstep
    cases hstep
    simp only [stream, List.append_assoc, List.take_append_drop]
  | epollWait writen =>
    rw [step] at hstep
    split_ifs at hstep
    have hhandled : stream next = stream (reported fd state) := stream_handleevent hstep
    exact hhandled
  | read count =>
    rw [step] at hstep
    split_ifs at hstep
    cases hstep
    simp only [stream, List.append_assoc]
    rw [← List.append_assoc (state.inbound.take count), List.take_append_drop]
  | eof =>
    rw [step] at hstep
    split_ifs at hstep
    exact stream_close hstep
  | drain stale now =>
    rw [step] at hstep
    split at hstep
    · cases hstep
    · split at hstep
      · cases hstep
      · split at hstep
        · cases hstep
          rfl
        · cases hstep
          rfl
  | shutdown | fail =>
    cases hstep
    rfl
  | sendInloop message =>
    rw [step] at hstep
    split at hstep
    · cases hstep
    · split at hstep
      · cases hstep
      · cases hstep
        rfl
  | callback =>
    rw [step] at hstep
    split at hstep
    · split at hstep
      · cases hstep
        rfl
      · cases hstep
        rfl
    · cases hstep
  | interrupted | again | erase | delete =>
    rw [step] at hstep
    split at hstep
    · cases hstep
    · cases hstep
      rfl

/-- What holds in every state of a run of published steps. -/
theorem inv_of_published {payloads : List Bytes}
    (hreach : (system this fd payloads).ReachesUnder Published state) : Inv fd payloads state := by
  refine hreach.invariant (Inv fd payloads) ?_ ?_
  · intro start hinitial
    refine ⟨?_, .inl ⟨hinitial.setup, hinitial.unregistered, hinitial.phase, hinitial.read,
      hinitial.handled⟩⟩
    rw [stream, hinitial.read, hinitial.inbound, hinitial.unsent]
    rfl
  · intro before label after hinv hpublished hstep
    refine ⟨(stream_step hstep).trans hinv.stream, ?_⟩
    rcases hinv.stage with hfresh | hbuilt
    · exact hfresh.step hstep
    · exact .inr (hbuilt.step hpublished hstep)

/-- The bytes of a built object's buffer are never a malformed header. -/
theorem Built.formed {payloads : List Bytes} (hbuilt : Built fd state)
    (hmax : ∀ payload ∈ payloads, (payload.length : ℤ) ≤ maxPayload)
    (hstream : stream state = payloads.flatMap encode) :
    ¬ Malformed state.connection.inputbuffer.buf := by
  intro hmalformed
  rw [stream, List.append_assoc] at hstream
  apply formed_of_encodeAll hmax hstream
  rwa [hbuilt.advances.remainder_eq,
    StreamParser.remainder_of_none (next_of_malformed hmalformed)]

/-- Before the constructor there is nothing to serve. -/
theorem Fresh.complete (hfresh : Fresh fd state) : Complete state where
  handled := by
    intro _ _
    rw [hfresh.handled, hfresh.read, StreamParser.items_of_none rfl]
  seen := fun _ hsetup ↦ absurd hfresh.setup (Nat.ne_of_gt hsetup)
  removed := by
    intro hclosed
    rw [hfresh.phase] at hclosed
    cases hclosed

/-- A built object is served as it is to be. -/
theorem Built.complete (hbuilt : Built fd state) : Complete state where
  handled := by
    intro hreading hdraining
    have hparsed : state.phase.parsed = true := by
      cases hphase : state.phase with
      | reading => exact absurd hphase hreading
      | draining => exact absurd hphase hdraining
      | _ => rfl
    rw [hbuilt.advances.items_eq, StreamParser.items_of_none (hbuilt.parsed hparsed),
      List.append_nil]
  seen := fun hwaiting _ ↦ (hbuilt.serving (by rw [hwaiting]; rfl)).connected
  removed := fun hclosed ↦ ⟨hbuilt.erased (.inr hclosed), hbuilt.deleted hclosed⟩

/-- The drain loop of a built object makes its next step. -/
theorem drains (hformed : ¬ Malformed state.connection.inputbuffer.buf)
    (hdraining : state.phase = .draining) (stale : Stale) (now : ℤ) :
    ∃ next, step this fd state (.drain stale now) = some next := by
  rw [step, if_neg (not_not.mpr hdraining)]
  rcases getmessage_cases stale state.connection.inputbuffer with
    ⟨payload, rest, -, hcall⟩ | ⟨-, -, hcall⟩ | ⟨hmalformed, -⟩
  · rw [hcall]
    dsimp only
    split_ifs <;> exact ⟨_, rfl⟩
  · rw [hcall]
    exact ⟨_, rfl⟩
  · exact absurd hmalformed hformed

/-- A close of a built object is carried out once `newconnection` has returned. -/
theorem Built.closes (hbuilt : Built fd state) (payloads : List Bytes) {failed : Bool}
    (hclosing : state.phase = .closing failed) (hsetup : state.setup = 6) :
    ∃ next, (system this fd payloads).run state [.callback, .erase, .delete] = some next ∧
      next.phase = .closed := by
  have hcallback : Publication.step this fd state .callback =
      some { state with phase := .erasing } := by
    rw [Publication.step, hclosing]
    exact if_pos (hbuilt.callbackSet hsetup failed)
  refine ⟨{ state with
    phase := .closed, inserted := false, deleted := true, ep := state.ep.close fd }, ?_, rfl⟩
  change (Publication.step this fd state .callback).bind _ = _
  rw [hcallback]
  rfl

/-- In every run of published steps the connection is served as it is to be. Moreover the drain loop
never fails, and a close that was seen is carried out once `newconnection` has returned. -/
theorem complete_of_published {payloads : List Bytes}
    (hmax : ∀ payload ∈ payloads, (payload.length : ℤ) ≤ maxPayload)
    (hreach : (system this fd payloads).ReachesUnder Published state) :
    Complete state ∧
      (state.phase = .draining → ∀ stale now, ∃ next,
        step this fd state (.drain stale now) = some next) ∧
      (∀ failed, state.phase = .closing failed → state.setup = 6 → ∃ next,
        (system this fd payloads).run state [.callback, .erase, .delete] = some next ∧
          next.phase = .closed) := by
  obtain ⟨hstream, hfresh | hbuilt⟩ := inv_of_published hreach
  · have hphase := hfresh.phase
    refine ⟨hfresh.complete, fun h ↦ ?_, fun failed h ↦ ?_⟩
    · rw [hphase] at h
      cases h
    · rw [hphase] at h
      cases h
  · exact ⟨hbuilt.complete, drains (hbuilt.formed hmax hstream),
      fun failed hclosing ↦ hbuilt.closes payloads hclosing⟩

/-- A descriptor just accepted, before the peer has sent anything. -/
def start (payloads : List Bytes) : State where
  setup := 0
  connection := .constructed 1 7 0
  ep := .epollCreate
  inserted := false
  deleted := false
  phase := .waiting
  unsent := payloads.flatMap encode
  inbound := []
  fin := false
  read := []
  handled := []

theorem start_initial (payloads : List Bytes) : Initial 7 payloads (start payloads) :=
  ⟨rfl, rfl, rfl, rfl, rfl, rfl, rfl, rfl, rfl, rfl⟩

/-- One frame that arrives early is handled after the publication, and then the peer closes. -/
theorem complete_published :
    ∃ state, (system 1 7 [[97]]).ReachesUnder Published state ∧ state.handled = [[97]] ∧
      state.phase = .closed ∧ Complete state := by
  have hreach : ∃ state, (system 1 7 [[97]]).ReachesUnder Published state ∧
      state.handled = [[97]] ∧ state.phase = .closed := by
    refine ⟨_, .of_run (.initial (start_initial [[97]]))
      [.arrive 5, .newconnection 0, .epollWait 0, .newconnection 0, .read 5, .newconnection 0,
        .again, .newconnection 0, .newconnection 0, .drain (fun _ ↦ 0) 0, .newconnection 0,
        .drain (fun _ ↦ 0) 0, .shutdown, .epollWait 0, .eof, .callback, .erase, .delete] ?_ rfl,
      ?_, ?_⟩
    · decide
    · rfl
    · rfl
  obtain ⟨state, hstate, hhandled, hclosed⟩ := hreach
  exact ⟨state, hstate, hhandled, hclosed,
    (complete_of_published (by decide) hstate).1⟩

/-- A frame taken out of the buffer before the message callback is set is lost. -/
theorem not_complete_early :
    ¬ ∀ state, (system 1 7 [[97]]).Reachable state → Complete state := by
  intro hcomplete
  have hreach : ∃ state, (system 1 7 [[97]]).Reachable state ∧ state.phase = .waiting ∧
      state.setup = 6 ∧ state.handled = [] ∧ state.read = encode [97] :=
    ⟨_, .of_run (.initial (start_initial [[97]]))
      [.arrive 5, .newconnection 0, .epollWait 0, .read 5, .again, .drain (fun _ ↦ 0) 0,
        .drain (fun _ ↦ 0) 0, .newconnection 0, .newconnection 0, .newconnection 0,
        .newconnection 0, .newconnection 0] rfl, rfl, rfl, rfl, rfl⟩
  obtain ⟨state, hstate, hwaiting, -, hhandled, hread⟩ := hreach
  have hlost := (hcomplete state hstate).handled (by rw [hwaiting]; decide)
    (by rw [hwaiting]; decide)
  rw [hhandled, hread] at hlost
  have hidle : frameParser.next (encode [97]) = none :=
    StreamParser.items_eq_nil_iff.mp hlost.symm
  cases hidle

end Reactor.Publication
