import Reactor.Connection
import Reactor.Library.TransitionSystem
import Mathlib.Data.List.TakeDrop

/-!
# Connections of the single-reactor server

The server with one thread has the same `Buffer`, `Channel` and `Epoll::updatechannel`, and a
`Connection` without flags and time stamps; its callbacks are set before the loop can call them. Its
`onmessage` reads and drains in the same way, but a zero `read` only calls the close callback.

`EchoServer::HandleMessage` frames the reply to a message and gives it to `::send` itself, whatever
`::send` returns; the output buffer, which the write callback empties, stays empty. So the bytes the
kernel accepts are the replies, in order, exactly as long as every `::send` accepts a whole frame
(`survives_iff`).
-/

set_option autoImplicit false
set_option relaxedAutoImplicit false

namespace Reactor.SingleReactor

open Library NativeInt

structure Connection where
  /-- The descriptor of `client_socket`. -/
  fd : Fd
  clientchannel : Channel
  inputbuffer : Buffer
  outputbuffer : Buffer

/-- How a call of `onmessage` goes: it is still reading, it has dispatched some messages, or the
peer has closed. -/
inductive Outcome
  | reading (connection : Connection)
  | drained (connection : Connection) (messages : List Bytes)
  | closed (connection : Connection)

namespace Connection

/-- The constructor. -/
def new (this : ℕ) (clientfd : Fd) (ep : Epoll) : Except ProgramExit (Connection × Epoll) :=
  match (Channel.new this clientfd).useET.enabreading ep with
  | .error failure => .error failure
  | .ok (clientchannel, next) =>
    .ok ({ fd := clientfd, clientchannel, inputbuffer := ⟨[]⟩, outputbuffer := ⟨[]⟩ }, next)

/-- The inner loop of `onmessage`: the buffer it leaves and the messages it dispatches. -/
def drain (stale : ℕ → Stale) (count : ℕ) (buffer : Buffer) : Except Fault (Buffer × List Bytes) :=
  match _ : buffer.getmessage (stale count) with
  | .error fault => .error fault
  | .ok (message, rest) =>
    if _ : message = Buffer.noMessage then .ok (rest, [])
    else
      match drain stale (count + 1) rest with
      | .error fault => .error fault
      | .ok (final, messages) => .ok (final, message :: messages)
termination_by buffer.size
decreasing_by exact Buffer.getmessage_shrinks ‹_› ‹_›

def onmessage (stale : ℕ → Stale) : List ReadResult → Connection → Except Fault Outcome
  | [], connection => .ok (.reading connection)
  | .data chunk :: rest, connection =>
    onmessage stale rest
      { connection with inputbuffer := connection.inputbuffer.append chunk.val }
  | .failed errno :: rest, connection =>
    if errno = EINTR then onmessage stale rest connection
    else if errno = EAGAIN ∨ errno = EWOULDBLOCK then
      match drain stale 0 connection.inputbuffer with
      | .error fault => .error fault
      | .ok (inputbuffer, messages) => .ok (.drained { connection with inputbuffer } messages)
    else onmessage stale rest connection
  | .eof :: _, connection => .ok (.closed connection)

/-- The write callback, and whether it called the completion callback; `writen` is what `::send`
returned. -/
def setwritecallback (writen : ℤ) (connection : Connection) (ep : Epoll) :
    Except ProgramExit (Connection × Epoll × Bool) :=
  let sent : Connection :=
    if 0 < writen then
      { connection with outputbuffer := connection.outputbuffer.erase 0 writen.toNat }
    else connection
  if sent.outputbuffer.size = 0 then
    match sent.clientchannel.disabwriting ep with
    | .error failure => .error failure
    | .ok (clientchannel, next) => .ok ({ sent with clientchannel }, next, true)
  else .ok (sent, ep, false)

end Connection

/-- The characters of `"reply:"`. -/
def replyHead : Bytes := [114, 101, 112, 108, 121, 58]

/-- The data `EchoServer::HandleMessage` passes to `::send`. -/
def handleMessage (message : Bytes) : Bytes :=
  let reply := replyHead ++ message
  encodeInt (intOfSize reply.length) ++ reply

/-! ### The replies of one connection -/

/-- A connection with the bytes the kernel has accepted and the messages it has dispatched. -/
structure Stream where
  connection : Connection
  ep : Epoll
  accepted : Bytes
  dispatched : List Bytes

/-- A dispatched message or a call of the write callback, with what `::send` returned. -/
inductive Send
  | handleMessage (message : Bytes) (writen : ℤ)
  | setwritecallback (writen : ℤ)

/-- `::send` can return `-1` or any count up to the size of what it is given. -/
def CanReturn (data : Bytes) (writen : ℤ) : Prop := -1 ≤ writen ∧ writen ≤ data.length

instance (data : Bytes) (writen : ℤ) : Decidable (CanReturn data writen) :=
  inferInstanceAs (Decidable (_ ∧ _))

def step (stream : Stream) : Send → Option Stream
  | .handleMessage message writen =>
    if CanReturn (handleMessage message) writen then
      some { stream with
        accepted := stream.accepted ++ (handleMessage message).take writen.toNat
        dispatched := stream.dispatched ++ [message] }
    else none
  | .setwritecallback writen =>
    if CanReturn stream.connection.outputbuffer.buf writen then
      match stream.connection.setwritecallback writen stream.ep with
      | .error _ => none
      | .ok (connection, ep, _) =>
        some { stream with
          connection, ep
          accepted := stream.accepted ++ stream.connection.outputbuffer.buf.take writen.toNat }
    else none

/-- Before the first message: nothing to send. -/
structure Initial (stream : Stream) : Prop where
  output : stream.connection.outputbuffer.buf = []
  accepted : stream.accepted = []
  dispatched : stream.dispatched = []

def system : TransitionSystem Stream Send where
  initial := Initial
  step := step

/-- What was accepted and the output buffer are together the replies to the messages dispatched. -/
def Survives (stream : Stream) : Prop :=
  stream.accepted ++ stream.connection.outputbuffer.buf = stream.dispatched.flatMap handleMessage

/-- `::send` accepts the whole reply. -/
def SendsWhole (_ : Stream) : Send → Prop
  | .handleMessage message writen => writen = (handleMessage message).length
  | .setwritecallback _ => True

instance (stream : Stream) : ∀ send, Decidable (SendsWhole stream send)
  | .handleMessage message writen =>
    inferInstanceAs (Decidable (writen = (handleMessage message).length))
  | .setwritecallback _ => .isTrue trivial

/-- The output buffer stays empty, and no more is accepted than is replied. -/
structure Inv (stream : Stream) : Prop where
  output : stream.connection.outputbuffer.buf = []
  accepted : stream.accepted.length ≤ (stream.dispatched.flatMap handleMessage).length

/-- The effect of a step while the output buffer is empty. -/
inductive Effect (stream : Stream) : Send → Stream → Prop
  | handleMessage {message : Bytes} {writen : ℤ}
      (hreturn : CanReturn (handleMessage message) writen) :
      Effect stream (.handleMessage message writen)
        { stream with
          accepted := stream.accepted ++ (SingleReactor.handleMessage message).take writen.toNat
          dispatched := stream.dispatched ++ [message] }
  | nothing {writen : ℤ} {next : Stream}
      (houtput : next.connection.outputbuffer.buf = [])
      (haccepted : next.accepted = stream.accepted)
      (hdispatched : next.dispatched = stream.dispatched) :
      Effect stream (.setwritecallback writen) next

/-- What the write callback does to the buffer, whether `::send` failed or not. -/
theorem sent_eq (writen : ℤ) (connection : Connection) :
    (if 0 < writen then
      { connection with outputbuffer := connection.outputbuffer.erase 0 writen.toNat }
      else connection) =
        { connection with outputbuffer := ⟨connection.outputbuffer.buf.drop writen.toNat⟩ } := by
  split_ifs with hpositive
  · simp [Buffer.erase]
  · rw [Int.toNat_of_nonpos (by omega), List.drop_zero]

/-- The write callback leaves an empty output buffer empty. -/
theorem output_of_setwritecallback {writen : ℤ} {connection next : Connection} {ep epNext : Epoll}
    {completed : Bool} (houtput : connection.outputbuffer.buf = [])
    (hcall : connection.setwritecallback writen ep = .ok (next, epNext, completed)) :
    next.outputbuffer.buf = [] := by
  rw [Connection.setwritecallback, sent_eq] at hcall
  rw [if_pos (by simp [Buffer.size, houtput])] at hcall
  split at hcall
  · cases hcall
  · cases hcall
    dsimp only
    rw [houtput, List.drop_nil]

theorem effect_of_step {stream next : Stream} {send : Send} (hinv : Inv stream)
    (hstep : step stream send = some next) : Effect stream send next := by
  cases send with
  | handleMessage message writen =>
    simp only [step, Option.ite_none_right_eq_some] at hstep
    obtain ⟨hreturn, hnext⟩ := hstep
    cases hnext
    exact .handleMessage hreturn
  | setwritecallback writen =>
    simp only [step] at hstep
    split_ifs at hstep
    split at hstep
    · cases hstep
    · rename_i connection ep completed hcall
      cases hstep
      refine .nothing (output_of_setwritecallback hinv.output hcall) ?_ rfl
      rw [hinv.output, List.take_nil, List.append_nil]

theorem Inv.effect {stream next : Stream} {send : Send} (hinv : Inv stream)
    (heffect : Effect stream send next) : Inv next := by
  cases heffect with
  | @handleMessage message writen hreturn =>
    refine ⟨hinv.output, ?_⟩
    have htaken := List.length_take_le' writen.toNat (handleMessage message)
    have hbefore := hinv.accepted
    simp only [List.length_append, List.flatMap_append, List.flatMap_singleton]
    omega
  | nothing houtput haccepted hdispatched =>
    exact ⟨houtput, by rw [haccepted, hdispatched]; exact hinv.accepted⟩

/-- With an empty output buffer the replies survive when all of them were accepted. -/
theorem survives_iff_accepted {stream : Stream} (hinv : Inv stream) :
    Survives stream ↔ stream.accepted = stream.dispatched.flatMap handleMessage := by
  rw [Survives, hinv.output, List.append_nil]

/-- A reply has at least a header. -/
theorem length_handleMessage_pos (message : Bytes) : 0 < (handleMessage message).length := by
  simp [handleMessage, encodeInt]

/-- While the replies have survived, they survive a step exactly when it sends a whole reply. -/
theorem survives_effect_iff {stream next : Stream} {send : Send} (hinv : Inv stream)
    (hsurvives : Survives stream) (heffect : Effect stream send next) :
    Survives next ↔ SendsWhole stream send := by
  have hnext := hinv.effect heffect
  rw [survives_iff_accepted hinv] at hsurvives
  rw [survives_iff_accepted hnext]
  cases heffect with
  | @handleMessage message writen hreturn =>
    simp only [hsurvives, List.flatMap_append, List.flatMap_singleton, List.append_cancel_left_eq,
      List.take_eq_self_iff, SendsWhole]
    obtain ⟨hlow, hhigh⟩ := hreturn
    have hpos := length_handleMessage_pos message
    omega
  | nothing houtput haccepted hdispatched =>
    exact iff_of_true (by rw [haccepted, hdispatched, hsurvives]) trivial

/-- A reply that was cut is not made whole by later ones. -/
theorem survives_of_effect {stream next : Stream} {send : Send} (hinv : Inv stream)
    (heffect : Effect stream send next) (hsurvives : Survives next) : Survives stream := by
  have hnext := hinv.effect heffect
  rw [survives_iff_accepted hnext] at hsurvives
  rw [survives_iff_accepted hinv]
  cases heffect with
  | @handleMessage message writen hreturn =>
    simp only [List.flatMap_append, List.flatMap_singleton] at hsurvives
    have htaken := List.length_take_le' writen.toNat (handleMessage message)
    have hlength := congrArg List.length hsurvives
    have hbefore := hinv.accepted
    simp only [List.length_append] at hlength
    exact (List.append_inj hsurvives (by omega)).1
  | nothing houtput haccepted hdispatched => rw [← haccepted, hsurvives, hdispatched]

/-- On a connection of the single-reactor server, after any messages dispatched and any results of
`::send`: what the kernel accepted and the output buffer are together the replies to all messages
dispatched, in order, exactly when every `::send` of a reply accepted all of it. -/
theorem survives_iff {start final : Stream} (hinitial : Initial start) {sends : List Send}
    (hrun : system.run start sends = some final) :
    Survives final ↔ system.GuardedRun SendsWhole start sends := by
  have hinv : Inv start := ⟨hinitial.output, by rw [hinitial.accepted]; exact Nat.zero_le _⟩
  have hsurvives : Survives start := by
    rw [survives_iff_accepted hinv, hinitial.accepted, hinitial.dispatched]
    rfl
  exact TransitionSystem.final_iff_guardedRun Inv Survives
    (fun _ _ _ hstate hstep ↦ hstate.effect (effect_of_step hstate hstep))
    (fun _ _ _ hstate hproperty hstep ↦
      survives_effect_iff hstate hproperty (effect_of_step hstate hstep))
    (fun _ _ _ hstate hstep hnext ↦ survives_of_effect hstate (effect_of_step hstate hstep) hnext)
    hinv hsurvives hrun

/-- A new connection. -/
def Stream.new : Stream where
  connection := ⟨5, ⟨1, 5, true, EPOLLET ||| EPOLLIN, 0⟩, ⟨[]⟩, ⟨[]⟩⟩
  ep := Epoll.epollCreate.register 5 ⟨EPOLLET ||| EPOLLIN, 1⟩
  accepted := []
  dispatched := []

theorem initial_new : Initial .new := ⟨rfl, rfl, rfl⟩

/-- Two replies that are accepted whole. -/
theorem survives_whole :
    ∃ final, system.run .new [.handleMessage [97] 11, .handleMessage [] 10] = some final ∧
      final.dispatched = [[97], []] ∧ Survives final := by
  have hrun : ∃ final, system.run .new [.handleMessage [97] 11, .handleMessage [] 10] = some final ∧
      final.dispatched = [[97], []] := ⟨_, rfl, rfl⟩
  obtain ⟨final, hfinal, hdispatched⟩ := hrun
  exact ⟨final, hfinal, hdispatched, (survives_iff initial_new hfinal).mpr (by decide)⟩

/-- A reply of which three bytes are accepted. -/
theorem not_survives_cut : ¬ ∀ stream, system.Reachable stream → Survives stream := by
  intro hsurvives
  have hreach : ∃ stream, system.Reachable stream ∧ stream.accepted = [7, 0, 0] ∧
      stream.connection.outputbuffer.buf = [] ∧ stream.dispatched = [[97]] :=
    ⟨_, .of_run (.initial initial_new) [.handleMessage [97] 3] rfl, rfl, rfl, rfl⟩
  obtain ⟨stream, hstream, haccepted, houtput, hdispatched⟩ := hreach
  have hlost := hsurvives stream hstream
  rw [Survives, haccepted, houtput, hdispatched] at hlost
  exact absurd hlost (by decide)

end Reactor.SingleReactor
