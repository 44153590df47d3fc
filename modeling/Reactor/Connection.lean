import Reactor.Buffer
import Reactor.Channel

/-!
# Connections

A `Connection` owns the socket of one client, its channel and its two buffers. What it tells the
server goes through four callbacks; here a callback is set or null, and a call through one is an
`Event` of the trace a member function returns. `closeClient` and `errorClient` are events of
their own, since they run whether their callback is set or not.

`onmessage` loops over the results of `read`. Data is appended to `inputbuffer`, an interrupted
call is repeated, `EAGAIN` runs the drain loop (`drain`) and returns, a result of zero takes the
channel out of the loop and closes; any other error matches no branch and `read` is called again.
The results not read yet are a list, so a loop that wants another result than the list holds is
still `reading`.

The drain loop calls `Buffer.getmessage` until it returns `" "`. Its termination is that every other
message shortens the buffer. `drain_cases` is everything a drain can do, in the terms of
`Buffer.frameParser`: it reads frames up to and including the first one whose payload is `" "`, or
up to an incomplete one, or fails on a malformed header.
-/

set_option autoImplicit false
set_option relaxedAutoImplicit false

namespace Reactor

open Library

/-- The data of one successful `read` into the buffer of 1024 bytes. -/
abbrev Chunk := { bytes : Bytes // 0 < bytes.length ∧ bytes.length ≤ 1024 }

/-- The result of one `read`. -/
inductive ReadResult
  | data (chunk : Chunk)
  | eof
  | failed (errno : Errno)

/-- What a connection does that the server can see. -/
inductive Event
  | closeClient
  | errorClient
  | closecallback
  | errorcallback
  | messagecallback (message : Bytes)
  | sendcompletioncallback
  deriving DecidableEq

/-- Why the program ends inside a member function of a connection. -/
inductive Crash
  | fault (fault : Fault)
  | exit (failure : ProgramExit)

structure Connection where
  /-- The descriptor of `client_socket`. -/
  fd : Fd
  clientchannel : Channel
  inputbuffer : Buffer
  outputbuffer : Buffer
  disconnect : Bool
  closecallback : Bool
  errorcallback : Bool
  messagecallback : Bool
  sendcompletioncallback : Bool
  lastTime : ℤ

/-- What a drain meets outside the connection: the stale bytes seen by each `getmessage`, and the
clock at each message. -/
structure Ambient where
  stale : ℕ → Stale
  now : ℕ → ℤ

/-- Zero bytes behind the terminator and a clock that stands still. -/
def Ambient.still : Ambient := ⟨fun _ _ ↦ 0, fun _ ↦ 0⟩

/-- How far `onmessage` has come. -/
inductive Outcome
  | reading (connection : Connection)
  | returned (connection : Connection) (ep : Epoll) (events : List Event)

namespace Connection

/-- The constructor: the channel is registered, edge-triggered, for reading; no callback is set. -/
def new (this : ℕ) (clientfd : Fd) (now : ℤ) (ep : Epoll) :
    Except ProgramExit (Connection × Epoll) :=
  match (Channel.new this clientfd).useET.enabreading ep with
  | .error failure => .error failure
  | .ok (clientchannel, next) =>
    .ok ({ fd := clientfd, clientchannel, inputbuffer := ⟨[]⟩, outputbuffer := ⟨[]⟩,
           disconnect := false, closecallback := false, errorcallback := false,
           messagecallback := false, sendcompletioncallback := false, lastTime := now }, next)

def setclosecallback (connection : Connection) (fn : Bool) : Connection :=
  { connection with closecallback := fn }

def seterrorcallback (connection : Connection) (fn : Bool) : Connection :=
  { connection with errorcallback := fn }

def setmessagecallback (connection : Connection) (fn : Bool) : Connection :=
  { connection with messagecallback := fn }

def setsendcompletioncallback (connection : Connection) (fn : Bool) : Connection :=
  { connection with sendcompletioncallback := fn }

/-- Sets or clears one of the four callbacks, in the order in which `newconnection` sets and
`handle_timer` clears them. -/
def setcallback (count : ℕ) (fn : Bool) (connection : Connection) : Connection :=
  match count with
  | 0 => connection.setclosecallback fn
  | 1 => connection.seterrorcallback fn
  | 2 => connection.setmessagecallback fn
  | _ => connection.setsendcompletioncallback fn

/-- Only a callback changes. -/
@[simp] theorem outputbuffer_setcallback (count : ℕ) (fn : Bool) (connection : Connection) :
    (setcallback count fn connection).outputbuffer = connection.outputbuffer := by
  unfold setcallback
  split <;> rfl

def closeClient (connection : Connection) : Connection × List Event :=
  ({ connection with disconnect := true },
    .closeClient :: if connection.closecallback then [.closecallback] else [])

def errorClient (connection : Connection) : Connection × List Event :=
  ({ connection with disconnect := true },
    .errorClient :: if connection.errorcallback then [.errorcallback] else [])

/-- Whether the callback that `error_client` or `close_client` tests is set. -/
def callbackSet (connection : Connection) (failed : Bool) : Bool :=
  if failed then connection.errorcallback else connection.closecallback

/-- The inner loop of `onmessage`; `count` numbers its iterations. -/
def drain (ambient : Ambient) (count : ℕ) (connection : Connection) :
    Except Fault (Connection × List Event) :=
  match _ : connection.inputbuffer.getmessage (ambient.stale count) with
  | .error fault => .error fault
  | .ok (message, rest) =>
    if _ : message = Buffer.noMessage then
      .ok ({ connection with inputbuffer := rest }, [])
    else
      match drain ambient (count + 1)
        { connection with inputbuffer := rest, lastTime := ambient.now count } with
      | .error fault => .error fault
      | .ok (final, events) =>
        .ok (final, if connection.messagecallback then .messagecallback message :: events
          else events)
termination_by connection.inputbuffer.size
decreasing_by exact Buffer.getmessage_shrinks ‹_› ‹_›

def onmessage (ambient : Ambient) :
    List ReadResult → Connection → Epoll → Except Crash Outcome
  | [], connection, _ => .ok (.reading connection)
  | .data chunk :: rest, connection, ep =>
    onmessage ambient rest
      { connection with inputbuffer := connection.inputbuffer.append chunk.val } ep
  | .failed errno :: rest, connection, ep =>
    if errno = EINTR then onmessage ambient rest connection ep
    else if errno = EAGAIN ∨ errno = EWOULDBLOCK then
      match connection.drain ambient 0 with
      | .error fault => .error (.fault fault)
      | .ok (final, events) => .ok (.returned final ep events)
    else onmessage ambient rest connection ep
  | .eof :: _, connection, ep =>
    match connection.clientchannel.remove ep with
    | .error failure => .error (.exit failure)
    | .ok (clientchannel, next) =>
      let closed := ({ connection with clientchannel } : Connection).closeClient
      .ok (.returned closed.1 next closed.2)

/-- The write callback; `writen` is what `::send` returned. The source keeps it in an `int`, which
holds it: Linux sends at most `0x7ffff000` bytes in one call. A `::send` on a connection the peer
has reset may raise `SIGPIPE`, which ends the program; it then returns nothing, and this is not the
call. -/
def sendClient (writen : ℤ) (connection : Connection) (ep : Epoll) :
    Except ProgramExit (Connection × Epoll × List Event) :=
  let sent : Connection :=
    if 0 ≤ writen then
      { connection with outputbuffer := connection.outputbuffer.erase 0 writen.toNat }
    else connection
  if sent.outputbuffer.size = 0 then
    match sent.clientchannel.disabwriting ep with
    | .error failure => .error failure
    | .ok (clientchannel, next) =>
      .ok ({ sent with clientchannel }, next,
        if sent.sendcompletioncallback then [.sendcompletioncallback] else [])
  else .ok (sent, ep, [])

def sendInloop (message : Bytes) (connection : Connection) (ep : Epoll) :
    Except ProgramExit (Connection × Epoll) :=
  match connection.clientchannel.enabwriting ep with
  | .error failure => .error failure
  | .ok (clientchannel, next) =>
    .ok ({ connection with
             outputbuffer := connection.outputbuffer.append message, clientchannel }, next)

/-- What `sendmessage` does with its data: drop it, send it on this thread, or queue it. -/
inductive Route
  | dropped
  | inloop (message : Bytes)
  | addtask (message : Bytes)
  deriving DecidableEq

def sendmessage (isInloopThread : Bool) (data : Bytes) (connection : Connection) : Route :=
  if connection.disconnect then .dropped
  else if isInloopThread then .inloop data
  else .addtask data

/-- More than `val` seconds have passed since the last message. -/
def timeout (now val : ℤ) (connection : Connection) : Bool :=
  decide (val < now - connection.lastTime)

/-! ### Construction -/

/-- The object the constructor builds. -/
def constructed (this : ℕ) (clientfd : Fd) (now : ℤ) : Connection :=
  { fd := clientfd, clientchannel := ⟨this, clientfd, true, EPOLLET ||| EPOLLIN, 0⟩,
    inputbuffer := ⟨[]⟩, outputbuffer := ⟨[]⟩, disconnect := false, closecallback := false,
    errorcallback := false, messagecallback := false, sendcompletioncallback := false,
    lastTime := now }

/-- The object with its four callbacks set. -/
def published (this : ℕ) (clientfd : Fd) (now : ℤ) : Connection :=
  ((((constructed this clientfd now).setclosecallback true).seterrorcallback true
    ).setmessagecallback true).setsendcompletioncallback true

/-- On a descriptor that is not registered the constructor succeeds. -/
theorem new_of_unregistered (this : ℕ) {clientfd : Fd} (now : ℤ) {ep : Epoll}
    (hfree : ep.interest clientfd = none) :
    new this clientfd now ep =
      .ok (constructed this clientfd now,
        ep.register clientfd ⟨EPOLLET ||| EPOLLIN, this⟩) := by
  rw [new, Channel.enabreading_useET_new this hfree]
  rfl

/-! ### Sending -/

/-- With the right flag `sendInloop` succeeds: the message is appended and writing is wanted. -/
theorem sendInloop_of_flagMirrors (message : Bytes) {connection : Connection} {ep : Epoll}
    (hflag : connection.clientchannel.FlagMirrors ep) :
    connection.sendInloop message ep =
      .ok ({ connection with
             outputbuffer := connection.outputbuffer.append message
             clientchannel := { connection.clientchannel with
               event := connection.clientchannel.event ||| EPOLLOUT, inepoll := true } },
        ep.register connection.clientchannel.fd
          ⟨connection.clientchannel.event ||| EPOLLOUT, connection.clientchannel.this⟩) := by
  have hupdate : connection.clientchannel.enabwriting ep = _ :=
    Channel.updatechannel_of_flagMirrors _ hflag
  rw [sendInloop, hupdate]

/-- The part of the output buffer that a call of `::send` takes. -/
def taken (writen : ℤ) (connection : Connection) : Bytes :=
  connection.outputbuffer.buf.take writen.toNat

/-- The part of the output buffer that a call of `::send` leaves. -/
def unsent (writen : ℤ) (connection : Connection) : Bytes :=
  connection.outputbuffer.buf.drop writen.toNat

/-- What is sent and what is left are the output buffer. -/
theorem taken_append_unsent (writen : ℤ) (connection : Connection) :
    connection.taken writen ++ connection.unsent writen = connection.outputbuffer.buf :=
  List.take_append_drop _ _

/-- What `sendClient` does to the buffer, whether `::send` failed or not. -/
theorem sent_eq (writen : ℤ) (connection : Connection) :
    (if 0 ≤ writen then
      { connection with outputbuffer := connection.outputbuffer.erase 0 writen.toNat }
      else connection) = { connection with outputbuffer := ⟨connection.unsent writen⟩ } := by
  unfold unsent
  split_ifs with hnonneg
  · simp [Buffer.erase]
  · rw [Int.toNat_of_nonpos (by omega), List.drop_zero]

/-- `sendClient` takes what was sent off the buffer. -/
theorem output_of_sendClient {connection next : Connection} {writen : ℤ} {ep epNext : Epoll}
    {events : List Event} (hcall : connection.sendClient writen ep = .ok (next, epNext, events)) :
    next.outputbuffer.buf = connection.unsent writen := by
  rw [sendClient, sent_eq] at hcall
  split at hcall
  · split at hcall
    · cases hcall
    · cases hcall
      rfl
  · cases hcall
    rfl

/-- `sendInloop` appends its message. -/
theorem output_of_sendInloop {connection next : Connection} {message : Bytes} {ep epNext : Epoll}
    (hcall : connection.sendInloop message ep = .ok (next, epNext)) :
    next.outputbuffer.buf = connection.outputbuffer.buf ++ message := by
  rw [sendInloop] at hcall
  split at hcall
  · cases hcall
  · cases hcall
    rfl

/-- With the right flag `sendClient` succeeds: what was sent leaves the buffer, and writing is no
longer wanted when nothing is left. -/
theorem sendClient_of_flagMirrors (writen : ℤ) {connection : Connection} {ep : Epoll}
    (hflag : connection.clientchannel.FlagMirrors ep) :
    connection.sendClient writen ep =
      if connection.unsent writen = [] then
        .ok ({ connection with
               outputbuffer := ⟨[]⟩
               clientchannel := { connection.clientchannel with
                 event := connection.clientchannel.event &&& ~~~EPOLLOUT, inepoll := true } },
          ep.register connection.clientchannel.fd
            ⟨connection.clientchannel.event &&& ~~~EPOLLOUT, connection.clientchannel.this⟩,
          if connection.sendcompletioncallback then [.sendcompletioncallback] else [])
      else .ok ({ connection with outputbuffer := ⟨connection.unsent writen⟩ }, ep, []) := by
  have hupdate : connection.clientchannel.disabwriting ep = _ :=
    Channel.updatechannel_of_flagMirrors _ hflag
  rw [sendClient]
  dsimp only
  rw [sent_eq]
  by_cases hempty : connection.unsent writen = []
  · rw [if_pos hempty, if_pos (by simp [Buffer.size, hempty])]
    dsimp only
    rw [hupdate, hempty]
  · rw [if_neg hempty, if_neg (by simpa [Buffer.size] using hempty)]

/-- Only the channel and the output buffer of a connection change; the channel keeps its descriptor
and the right flag, and no other entry of the epoll instance is touched. -/
structure Serves (connection : Connection) (ep : Epoll) (next : Connection) (epNext : Epoll) :
    Prop where
  fd : next.clientchannel.fd = connection.clientchannel.fd
  flag : next.clientchannel.FlagMirrors epNext
  same : next = { connection with
    outputbuffer := next.outputbuffer, clientchannel := next.clientchannel }
  others : ∀ fd, fd ≠ connection.clientchannel.fd → epNext.interest fd = ep.interest fd

section Serves

variable {connection next : Connection} {ep epNext : Epoll}

theorem Serves.disconnect (hserves : Serves connection ep next epNext) :
    next.disconnect = connection.disconnect := by rw [hserves.same]

theorem Serves.inputbuffer (hserves : Serves connection ep next epNext) :
    next.inputbuffer = connection.inputbuffer := by rw [hserves.same]

theorem Serves.closecallback (hserves : Serves connection ep next epNext) :
    next.closecallback = connection.closecallback := by rw [hserves.same]

theorem Serves.errorcallback (hserves : Serves connection ep next epNext) :
    next.errorcallback = connection.errorcallback := by rw [hserves.same]

end Serves

/-- `sendInloop` appends its message. -/
theorem sendInloop_serves (message : Bytes) {connection : Connection} {ep : Epoll}
    (hflag : connection.clientchannel.FlagMirrors ep) :
    ∃ next epNext, connection.sendInloop message ep = .ok (next, epNext) ∧
      Serves connection ep next epNext ∧
      next.outputbuffer.buf = connection.outputbuffer.buf ++ message :=
  ⟨_, _, sendInloop_of_flagMirrors message hflag,
    ⟨rfl, Channel.flagMirrors_register { connection.clientchannel with
      event := connection.clientchannel.event ||| EPOLLOUT } ep _, rfl,
      fun _ hne ↦ Function.update_of_ne hne _ _⟩, rfl⟩

/-- `sendClient` takes what was sent off the buffer. -/
theorem sendClient_serves (writen : ℤ) {connection : Connection} {ep : Epoll}
    (hflag : connection.clientchannel.FlagMirrors ep) :
    ∃ next epNext events, connection.sendClient writen ep = .ok (next, epNext, events) ∧
      Serves connection ep next epNext ∧ next.outputbuffer.buf = connection.unsent writen := by
  rw [sendClient_of_flagMirrors writen hflag]
  by_cases hempty : connection.unsent writen = []
  · rw [if_pos hempty]
    exact ⟨_, _, _, rfl,
      ⟨rfl, Channel.flagMirrors_register { connection.clientchannel with
        event := connection.clientchannel.event &&& ~~~EPOLLOUT } ep _, rfl,
        fun _ hne ↦ Function.update_of_ne hne _ _⟩, hempty.symm⟩
  · rw [if_neg hempty]
    exact ⟨_, _, _, rfl, ⟨rfl, hflag, rfl, fun _ _ ↦ rfl⟩, rfl⟩

/-! ### The drain loop -/

/-- The messages of a trace, in order. -/
def messages (events : List Event) : List Bytes :=
  events.filterMap fun event ↦
    match event with
    | .messagecallback message => some message
    | _ => none

@[simp] theorem messages_cons_messagecallback (message : Bytes) (events : List Event) :
    messages (.messagecallback message :: events) = message :: messages events := rfl

/-- One iteration of the drain loop that returns `" "`. -/
theorem drain_of_noMessage {ambient : Ambient} {count : ℕ} {connection : Connection}
    {rest : Buffer}
    (hcall : connection.inputbuffer.getmessage (ambient.stale count) =
      .ok (Buffer.noMessage, rest)) :
    connection.drain ambient count = .ok ({ connection with inputbuffer := rest }, []) := by
  rw [drain]
  split
  · rename_i fault herror
    rw [hcall] at herror
    cases herror
  · rename_i message other hother
    rw [hcall] at hother
    cases hother
    exact dif_pos rfl

/-- One iteration of the drain loop that fails. -/
theorem drain_of_error {ambient : Ambient} {count : ℕ} {connection : Connection} {fault : Fault}
    (hcall : connection.inputbuffer.getmessage (ambient.stale count) = .error fault) :
    connection.drain ambient count = .error fault := by
  rw [drain]
  split
  · rename_i other herror
    rw [hcall] at herror
    cases herror
    rfl
  · rename_i message other hother
    rw [hcall] at hother
    cases hother

/-- One iteration of the drain loop that returns a message. -/
theorem drain_of_message {ambient : Ambient} {count : ℕ} {connection : Connection}
    {message : Bytes} {rest : Buffer}
    (hcall : connection.inputbuffer.getmessage (ambient.stale count) = .ok (message, rest))
    (hmessage : message ≠ Buffer.noMessage) :
    connection.drain ambient count =
      match drain ambient (count + 1)
        { connection with inputbuffer := rest, lastTime := ambient.now count } with
      | .error fault => .error fault
      | .ok (final, events) =>
        .ok (final, if connection.messagecallback then .messagecallback message :: events
          else events) := by
  rw [drain]
  split
  · rename_i fault herror
    rw [hcall] at herror
    cases herror
  · rename_i other left hother
    rw [hcall] at hother
    cases hother
    exact dif_neg hmessage

/-- The time stamp after some frames have been dispatched, the first in iteration `count`. -/
def stamp (ambient : Ambient) : ℕ → List Bytes → ℤ → ℤ
  | _, [], last => last
  | count, _ :: rest, _ => stamp ambient (count + 1) rest (ambient.now count)

/-- The connection a drain leaves, when it dispatched some frames and left some bytes. -/
def drained (ambient : Ambient) (count : ℕ) (connection : Connection) (dispatched : List Bytes)
    (left : Bytes) : Connection :=
  { connection with
    inputbuffer := ⟨left⟩
    lastTime := stamp ambient count dispatched connection.lastTime }

/-- The trace of a drain that dispatched some frames. -/
def dispatches (connection : Connection) (dispatched : List Bytes) : List Event :=
  if connection.messagecallback then dispatched.map .messagecallback else []

/-- Everything a drain can do. It dispatches the frames in front of the buffer up to an incomplete
one; or up to one whose payload is `" "`, which it takes off the buffer too; or it fails on a
malformed header behind some frames. -/
theorem drain_cases (ambient : Ambient) (count : ℕ) (connection : Connection) :
    ∃ dispatched left, Buffer.noMessage ∉ dispatched ∧
      ((Buffer.frameParser.Advances connection.inputbuffer.buf dispatched left ∧
          Buffer.frameParser.next left = none ∧ ¬ Buffer.Malformed left ∧
          connection.drain ambient count =
            .ok (connection.drained ambient count dispatched left,
              connection.dispatches dispatched)) ∨
        (Buffer.frameParser.Advances connection.inputbuffer.buf
            (dispatched ++ [Buffer.noMessage]) left ∧
          connection.drain ambient count =
            .ok (connection.drained ambient count dispatched left,
              connection.dispatches dispatched)) ∨
        (Buffer.frameParser.Advances connection.inputbuffer.buf dispatched left ∧
          Buffer.Malformed left ∧ ∃ fault, connection.drain ambient count = .error fault)) := by
  induction hsize : connection.inputbuffer.size using Nat.strongRecOn
    generalizing count connection with
  | _ size ih =>
    rcases Buffer.getmessage_cases (ambient.stale count) connection.inputbuffer with
      ⟨payload, rest, hnext, hcall⟩ | ⟨hnext, hformed, hcall⟩ | ⟨hmalformed, fault, hcall⟩
    · by_cases hpayload : payload = Buffer.noMessage
      · subst hpayload
        refine ⟨[], rest, List.not_mem_nil, .inr (.inl ⟨.cons hnext (.refl rest), ?_⟩)⟩
        rw [drain_of_noMessage hcall]
        simp [drained, dispatches, stamp]
      · have hshorter : rest.length < size := hsize ▸ Buffer.frameParser.shorter hnext
        obtain ⟨dispatched, left, hnot, hcases⟩ := ih rest.length hshorter (count + 1)
          { connection with inputbuffer := ⟨rest⟩, lastTime := ambient.now count } rfl
        have hnotCons : Buffer.noMessage ∉ payload :: dispatched := by
          simp only [List.mem_cons, not_or]
          exact ⟨Ne.symm hpayload, hnot⟩
        refine ⟨payload :: dispatched, left, hnotCons, ?_⟩
        rw [drain_of_message hcall hpayload]
        rcases hcases with ⟨hadvance, hdone, hformed, hdrain⟩ | ⟨hadvance, hdrain⟩ |
          ⟨hadvance, hmalformed, fault, hdrain⟩
        · refine .inl ⟨.cons hnext hadvance, hdone, hformed, ?_⟩
          rw [hdrain]
          by_cases hset : connection.messagecallback <;>
            simp [drained, dispatches, stamp, hset]
        · refine .inr (.inl ⟨.cons hnext hadvance, ?_⟩)
          rw [hdrain]
          by_cases hset : connection.messagecallback <;>
            simp [drained, dispatches, stamp, hset]
        · refine .inr (.inr ⟨.cons hnext hadvance, hmalformed, fault, ?_⟩)
          rw [hdrain]
    · refine ⟨[], connection.inputbuffer.buf, List.not_mem_nil,
        .inl ⟨.refl _, hnext, hformed, ?_⟩⟩
      rw [drain_of_noMessage hcall]
      simp [drained, dispatches, stamp]
    · exact ⟨[], connection.inputbuffer.buf, List.not_mem_nil,
        .inr (.inr ⟨.refl _, hmalformed, fault, drain_of_error hcall⟩)⟩

/-- What a drain that succeeds leaves. It dispatches something exactly when a frame with a payload
other than `" "` is in front of the buffer. -/
theorem drain_ok {ambient : Ambient} {count : ℕ} {connection final : Connection}
    {events : List Event} (hdrain : connection.drain ambient count = .ok (final, events)) :
    ∃ dispatched left, final = connection.drained ambient count dispatched left ∧
      events = connection.dispatches dispatched ∧
      (dispatched ≠ [] ↔ ∃ found ∈ Buffer.frameParser.next connection.inputbuffer.buf,
        found.1 ≠ Buffer.noMessage) := by
  obtain ⟨dispatched, left, hnot, hcases⟩ := drain_cases ambient count connection
  have hfirst : ∀ payload rest, dispatched = payload :: rest → payload ≠ Buffer.noMessage := by
    rintro payload rest rfl heq
    exact hnot (heq ▸ List.mem_cons_self)
  rcases hcases with ⟨hadvance, hdone, -, hok⟩ | ⟨hadvance, hok⟩ | ⟨-, -, fault, herror⟩
  · rw [hok] at hdrain
    cases hdrain
    refine ⟨dispatched, left, rfl, rfl, ?_⟩
    cases hadvance with
    | refl => simp [hdone]
    | cons hnext _ => simp [hnext, hfirst _ _ rfl]
  · rw [hok] at hdrain
    cases hdrain
    refine ⟨dispatched, left, rfl, rfl, ?_⟩
    cases dispatched with
    | nil =>
      cases hadvance with
      | cons hnext _ => simp [hnext]
    | cons payload rest =>
      cases hadvance with
      | cons hnext _ => simp [hnext, hfirst _ _ rfl]
  · rw [herror] at hdrain
    cases hdrain

/-- A drain of an incomplete frame does nothing. -/
theorem drain_of_incomplete (ambient : Ambient) {connection : Connection}
    (hnext : Buffer.frameParser.next connection.inputbuffer.buf = none)
    (hformed : ¬ Buffer.Malformed connection.inputbuffer.buf) :
    connection.drain ambient 0 = .ok (connection, []) := by
  rcases Buffer.getmessage_cases (ambient.stale 0) connection.inputbuffer with
    ⟨payload, rest, hfound, -⟩ | ⟨-, -, hcall⟩ | ⟨hmalformed, -⟩
  · rw [hnext] at hfound
    cases hfound
  · exact drain_of_noMessage hcall
  · exact absurd hmalformed hformed

/-! ### The outer loop of `onmessage` -/

/-- The bytes a call of `onmessage` reads before the result that ends it. -/
def bytesOf : List ReadResult → Bytes
  | [] => []
  | .data chunk :: rest => chunk.val ++ bytesOf rest
  | .failed errno :: rest =>
    if errno = EAGAIN ∨ errno = EWOULDBLOCK then [] else bytesOf rest
  | .eof :: _ => []

/-- The result that ends a call of `onmessage` is the end of the stream. -/
def endsWithEof : List ReadResult → Bool
  | [] => false
  | .data _ :: rest => endsWithEof rest
  | .failed errno :: rest =>
    if errno = EAGAIN ∨ errno = EWOULDBLOCK then false else endsWithEof rest
  | .eof :: _ => true

/-- A call of `onmessage` that returns has drained what it read, or has closed. -/
theorem onmessage_returned {ambient : Ambient} {final : Connection} {epNext : Epoll}
    {events : List Event} (results : List ReadResult) :
    ∀ (connection : Connection) (ep : Epoll),
      connection.onmessage ambient results ep = .ok (.returned final epNext events) →
        (endsWithEof results = false ∧ epNext = ep ∧
          drain ambient 0 { connection with
            inputbuffer := connection.inputbuffer.append (bytesOf results) } =
              .ok (final, events)) ∨
        (endsWithEof results = true ∧
          connection.clientchannel.remove ep = .ok (final.clientchannel, epNext) ∧
          events = (.closeClient :: if connection.closecallback then [.closecallback] else []) ∧
          final = { connection with
            inputbuffer := connection.inputbuffer.append (bytesOf results)
            clientchannel := final.clientchannel
            disconnect := true }) := by
  induction results with
  | nil =>
    intro connection ep hreturned
    cases hreturned
  | cons result rest ih =>
    intro connection ep hreturned
    cases result with
    | data chunk =>
      rw [onmessage] at hreturned
      simpa only [endsWithEof, bytesOf, Buffer.append_append] using ih _ ep hreturned
    | eof =>
      rw [onmessage] at hreturned
      split at hreturned
      · cases hreturned
      · rename_i clientchannel after hremove
        cases hreturned
        exact .inr ⟨rfl, hremove, rfl, by rw [bytesOf, Buffer.append_nil]; rfl⟩
    | failed errno =>
      rw [onmessage] at hreturned
      by_cases hintr : errno = EINTR
      · rw [if_pos hintr] at hreturned
        have hagain : ¬ (errno = EAGAIN ∨ errno = EWOULDBLOCK) := by
          rw [hintr]
          decide
        simpa only [endsWithEof, bytesOf, if_neg hagain] using ih connection ep hreturned
      · rw [if_neg hintr] at hreturned
        by_cases hagain : errno = EAGAIN ∨ errno = EWOULDBLOCK
        · rw [if_pos hagain] at hreturned
          split at hreturned
          · cases hreturned
          · rename_i drained dispatched hdrain
            cases hreturned
            refine .inl ⟨by rw [endsWithEof, if_pos hagain], rfl, ?_⟩
            simpa only [bytesOf, if_pos hagain, Buffer.append_nil] using hdrain
        · rw [if_neg hagain] at hreturned
          simpa only [endsWithEof, bytesOf, if_neg hagain] using ih connection ep hreturned

/-- A call of `onmessage` that reads part of a frame keeps the part. -/
theorem onmessage_incomplete (ambient : Ambient) (chunk : Chunk) {connection : Connection}
    (ep : Epoll) (hnext : Buffer.frameParser.next (connection.inputbuffer.buf ++ chunk.val) = none)
    (hformed : ¬ Buffer.Malformed (connection.inputbuffer.buf ++ chunk.val)) :
    connection.onmessage ambient [.data chunk, .failed EAGAIN] ep =
      .ok (.returned { connection with
        inputbuffer := connection.inputbuffer.append chunk.val } ep []) := by
  have hintr : EAGAIN ≠ EINTR := by decide
  rw [onmessage, onmessage, if_neg hintr, if_pos (.inl rfl),
    drain_of_incomplete ambient hnext hformed]

/-- The messages in the trace of a drain. -/
theorem messages_dispatches (connection : Connection) (dispatched : List Bytes) :
    messages (connection.dispatches dispatched) =
      if connection.messagecallback then dispatched else [] := by
  unfold dispatches
  split_ifs
  · induction dispatched with
    | nil => rfl
    | cons payload rest ih => rw [List.map_cons, messages_cons_messagecallback, ih]
  · rfl

end Connection

end Reactor
