import Reactor.ReplyPipeline

/-!
# Pending output under edge triggering

The connections of a sub-loop are registered edge-triggered: a report takes a descriptor off the
ready list, and only a new edge, or an `EPOLL_CTL_MOD` while it is ready, puts it back. A report of
several events is served by one branch of `handleevent` only, so the others are served later only if
something puts the descriptor back.

`step` is one sub-loop with any number of connections. The kernel accepts connections and raises
edges at any time; `epoll_wait` reports some of the ready descriptors; each channel of the batch is
then handled, with any results of `read` and `::send`, and the channel of the `eventfd` by running
any `send_inloop` tasks. A short or failed `::send` means that the socket is no longer writable, and
`EAGAIN` that it is no longer readable.

Output is `Stranded` when the loop is back at `epoll_wait` while a socket with pending output is
writable and not on the ready list. This does not happen in runs whose steps are `Rearming`: when a
report of a connection with pending output has the writable bit and is served by the read branch,
the handler closes the connection, or sends a reply itself, which puts the descriptor back
(`not_stranded`).
-/

set_option autoImplicit false
set_option relaxedAutoImplicit false

namespace Reactor.EdgeTriggering

open Library Buffer Connection

/-- A channel pointer in a batch: that of a connection, or that of the `eventfd`. -/
inductive Pointer
  | connection (fd : Fd)
  | wakeup
  deriving DecidableEq

structure State where
  connections : Fd → Option Connection
  ep : Epoll
  /-- The channels of the last report that have not been handled. -/
  batch : List Pointer

/-- What a handler meets: the results of `read` and of `::send`, and the surroundings of the
drain. -/
structure Circumstances where
  ambient : Ambient
  results : List ReadResult
  writen : ℤ

inductive Label
  | accept (fd : Fd) (this : ℕ) (now : ℤ) (level : EventMask)
  | raise (fd : Fd) (events : EventMask)
  | epollWait (reported : List Pointer)
  | handleevent (circumstances : Circumstances)
  | handleWakeup (tasks : List (Fd × Bytes))

/-- A connection goes on, with its epoll instance. -/
def State.put (state : State) (fd : Fd) (connection : Option Connection) (ep : Epoll) : State :=
  { state with connections := Function.update state.connections fd connection, ep }

/-- `send_inloop` on a connection. -/
def sendInloop (state : State) (task : Fd × Bytes) : Option State :=
  match state.connections task.1 with
  | none => none
  | some connection =>
    match connection.sendInloop task.2 state.ep with
    | .error _ => none
    | .ok (next, ep) => some (state.put task.1 (some next) ep)

/-- `Handledata` on the thread of the loop. -/
def handledata (fd : Fd) (state : State) (message : Bytes) : Option State :=
  match state.connections fd with
  | none => none
  | some connection =>
    match connection.sendmessage true (ReplyPipeline.handledata message) with
    | .dropped => some state
    | .inloop reply => sendInloop state (fd, reply)
    | .addtask _ => none

/-- After a close or an error: the object is deleted, and its descriptor closed, when its callback
is set. -/
def leave (state : State) (fd : Fd) (connection : Connection) (ep : Epoll) (events : List Event) :
    State :=
  if .closecallback ∈ events ∨ .errorcallback ∈ events then state.put fd none (ep.close fd)
  else state.put fd (some connection) ep

/-- `epoll_wait` takes the descriptors it reports off the ready list, and stores the reports in the
channels. A descriptor with nothing to report is only taken off the list. -/
def report (state : State) : List Pointer → State
  | [] => state
  | .wakeup :: rest => report { state with batch := state.batch ++ [.wakeup] } rest
  | .connection fd :: rest =>
    match state.connections fd with
    | none => report state rest
    | some connection =>
      let revent := state.ep.report fd
      let taken := state.put fd
        (some { connection with clientchannel := connection.clientchannel.setrevents revent })
        (state.ep.take fd)
      if revent = 0 then report taken rest
      else report { taken with batch := taken.batch ++ [.connection fd] } rest

/-- What `epoll_wait` may report: connections on the ready list, and the `eventfd`. -/
def ready (state : State) : Pointer → Bool
  | .connection fd => (state.connections fd).isSome && state.ep.ready fd
  | .wakeup => true

section Steps

variable (workers : ℕ)

/-- The member function `handleevent` calls, for a channel taken off the batch. -/
def handle (state : State) (fd : Fd) (connection : Connection) (circumstances : Circumstances) :
    Option State :=
  match Channel.handleevent connection.clientchannel.revent with
  | .close =>
    match connection.clientchannel.remove state.ep with
    | .error _ => none
    | .ok (clientchannel, ep) =>
      let closed := ({ connection with clientchannel } : Connection).closeClient
      some (leave state fd closed.1 ep closed.2)
  | .read =>
    match connection.onmessage circumstances.ambient circumstances.results state.ep with
    | .ok (.returned final ep events) =>
      if .closeClient ∈ events then some (leave state fd final ep events)
      else
        let drained := state.put fd (some final) (ep.lower fd EPOLLIN)
        -- With no workers each message is answered by the handler itself.
        if workers = 0 then (messages events).foldlM (handledata fd) drained else some drained
    | _ => none
  | .write =>
    if circumstances.writen < -1 ∨ connection.outputbuffer.size < circumstances.writen then none
    else
      match connection.sendClient circumstances.writen state.ep with
      | .error _ => none
      | .ok (next, ep, _) =>
        some (state.put fd (some next)
          (if circumstances.writen < connection.outputbuffer.size then ep.lower fd EPOLLOUT
            else ep))
  | .error =>
    match connection.clientchannel.remove state.ep with
    | .error _ => none
    | .ok (clientchannel, ep) =>
      let failed := ({ connection with clientchannel } : Connection).errorClient
      some (leave state fd failed.1 ep failed.2)

def step (state : State) : Label → Option State
  | .accept fd this now level =>
    if state.connections fd = none ∧ state.ep.interest fd = none then
      some (state.put fd (some (published this fd now))
        (Epoll.register { state.ep with level := Function.update state.ep.level fd level } fd
          ⟨EPOLLET ||| EPOLLIN, this⟩))
    else none
  | .raise fd events => some { state with ep := state.ep.raise fd events }
  | .epollWait reported =>
    if state.batch = [] ∧ reported.Nodup ∧ ∀ pointer ∈ reported, ready state pointer = true then
      some (report state reported)
    else none
  | .handleevent circumstances =>
    match state.batch with
    | .connection fd :: rest =>
      match state.connections fd with
      | none => none
      | some connection => handle workers { state with batch := rest } fd connection circumstances
    | _ => none
  | .handleWakeup tasks =>
    match state.batch with
    | .wakeup :: rest => tasks.foldlM sendInloop { state with batch := rest }
    | _ => none

/-- A loop without connections. -/
structure Initial (state : State) : Prop where
  connections : state.connections = fun _ ↦ none
  batch : state.batch = []

/-- The sub-loop, for a number of worker threads. -/
def system : TransitionSystem State Label where
  initial := Initial
  step := step workers

end Steps

/-- The loop is back at `epoll_wait`, and a socket with pending output is writable and not on the
ready list. -/
def Stranded (state : State) : Prop :=
  state.batch = [] ∧ ∃ fd connection, state.connections fd = some connection ∧
    connection.outputbuffer.buf ≠ [] ∧ state.ep.level fd &&& EPOLLOUT ≠ 0 ∧
      state.ep.ready fd = false

/-- Serving a channel by the read branch leaves its descriptor without a writable event that is
pending: there is no output, or no such event was reported, or the descriptor is on the ready list
again, or the handler closes, or it replies itself to a first message. -/
def Rearms (workers : ℕ) (state : State) (fd : Fd) (connection : Connection)
    (circumstances : Circumstances) : Prop :=
  Channel.handleevent connection.clientchannel.revent = .read →
    connection.outputbuffer.buf = [] ∨ connection.clientchannel.revent &&& EPOLLOUT = 0 ∨
      state.ep.ready fd = true ∨ endsWithEof circumstances.results = true ∨
      (workers = 0 ∧ ∃ found ∈ frameParser.next
        (connection.inputbuffer.buf ++ bytesOf circumstances.results), found.1 ≠ noMessage)

/-- The connection whose channel is handled next. -/
def State.current (state : State) : Option (Fd × Connection) :=
  match state.batch with
  | .connection fd :: _ => (state.connections fd).map fun connection ↦ (fd, connection)
  | _ => none

/-- A step that handles an event rearms. -/
def Rearming (workers : ℕ) (state : State) : Label → Prop
  | .handleevent circumstances =>
    ∀ served ∈ state.current, Rearms workers state served.1 served.2 circumstances
  | _ => True

instance (workers : ℕ) (state : State) (fd : Fd) (connection : Connection)
    (circumstances : Circumstances) :
    Decidable (Rearms workers state fd connection circumstances) :=
  inferInstanceAs (Decidable (_ → _))

instance (workers : ℕ) (state : State) : ∀ label, Decidable (Rearming workers state label)
  | .handleevent circumstances =>
    inferInstanceAs (Decidable (∀ served ∈ state.current,
      Rearms workers state served.1 served.2 circumstances))
  | .accept _ _ _ _ | .raise _ _ | .epollWait _ | .handleWakeup _ => .isTrue trivial

/-! ### The invariant -/

/-- A live connection is open and fully published, its channel is registered with the events it
wants, and it wants the writable event while it has output. -/
structure Sound (ep : Epoll) (fd : Fd) (connection : Connection) : Prop where
  channel : connection.clientchannel.fd = fd
  registered : ep.interest fd =
    some ⟨connection.clientchannel.event, connection.clientchannel.this⟩
  inepoll : connection.clientchannel.inepoll = true
  connected : connection.disconnect = false
  closecallback : connection.closecallback = true
  errorcallback : connection.errorcallback = true
  messagecallback : connection.messagecallback = true
  wanted : connection.outputbuffer.buf ≠ [] → connection.clientchannel.event &&& EPOLLOUT ≠ 0

/-- Output that can be sent is going to be: the descriptor is on the ready list, or is still to be
handled with a report of the writable event. -/
def Armed (ep : Epoll) (batch : List Pointer) (fd : Fd) (connection : Connection) : Prop :=
  connection.outputbuffer.buf ≠ [] → ep.level fd &&& EPOLLOUT ≠ 0 →
    ep.ready fd = true ∨
      .connection fd ∈ batch ∧ connection.clientchannel.revent &&& EPOLLOUT ≠ 0

/-- What holds between two steps; in a handler one connection may be exempt. -/
def Inv (exempt : Option Fd) (state : State) : Prop :=
  ∀ fd connection, state.connections fd = some connection →
    Sound state.ep fd connection ∧
      (some fd ≠ exempt → Armed state.ep state.batch fd connection)

/-- Two epoll instances that differ in one descriptor at most. -/
structure SameElse (fd : Fd) (ep epNext : Epoll) : Prop where
  interest : ∀ other, other ≠ fd → epNext.interest other = ep.interest other
  level : ∀ other, other ≠ fd → epNext.level other = ep.level other
  ready : ∀ other, other ≠ fd → epNext.ready other = ep.ready other

theorem SameElse.refl (fd : Fd) (ep : Epoll) : SameElse fd ep ep :=
  ⟨fun _ _ ↦ rfl, fun _ _ ↦ rfl, fun _ _ ↦ rfl⟩

theorem SameElse.trans {fd : Fd} {ep middle final : Epoll} (hfirst : SameElse fd ep middle)
    (hsecond : SameElse fd middle final) : SameElse fd ep final :=
  ⟨fun other hne ↦ (hsecond.interest other hne).trans (hfirst.interest other hne),
    fun other hne ↦ (hsecond.level other hne).trans (hfirst.level other hne),
    fun other hne ↦ (hsecond.ready other hne).trans (hfirst.ready other hne)⟩

theorem sameElse_register (ep : Epoll) (fd : Fd) (registration : Registration) :
    SameElse fd ep (ep.register fd registration) :=
  ⟨fun _ hne ↦ Function.update_of_ne hne _ _, fun _ _ ↦ rfl,
    fun _ hne ↦ Function.update_of_ne hne _ _⟩

theorem sameElse_close (ep : Epoll) (fd : Fd) : SameElse fd ep (ep.close fd) :=
  ⟨fun _ hne ↦ Function.update_of_ne hne _ _, fun _ _ ↦ rfl,
    fun _ hne ↦ Function.update_of_ne hne _ _⟩

theorem sameElse_raise (ep : Epoll) (fd : Fd) (events : EventMask) :
    SameElse fd ep (ep.raise fd events) :=
  ⟨fun _ _ ↦ rfl, fun _ hne ↦ Function.update_of_ne hne _ _,
    fun _ hne ↦ Function.update_of_ne hne _ _⟩

theorem sameElse_lower (ep : Epoll) (fd : Fd) (events : EventMask) :
    SameElse fd ep (ep.lower fd events) :=
  ⟨fun _ _ ↦ rfl, fun _ hne ↦ Function.update_of_ne hne _ _, fun _ _ ↦ rfl⟩

theorem sameElse_take (ep : Epoll) (fd : Fd) : SameElse fd ep (ep.take fd) := by
  refine ⟨fun _ _ ↦ by rw [Epoll.interest_take], fun _ _ ↦ by rw [Epoll.level_take], ?_⟩
  intro other hne
  unfold Epoll.take
  split
  · rfl
  · split
    · exact Function.update_of_ne hne _ _
    · rfl

/-- A change of one connection that leaves it sound and armed, or exempt, keeps the invariant. -/
theorem Inv.put {exempt exemptNext : Option Fd} {state : State} {fd : Fd} {ep : Epoll}
    {connection : Option Connection} (hinv : Inv exempt state) (hsame : SameElse fd state.ep ep)
    (hexempt : ∀ other, other ≠ fd → some other ≠ exemptNext → some other ≠ exempt)
    (hput : ∀ next, connection = some next → Sound ep fd next ∧
      (some fd ≠ exemptNext → Armed ep state.batch fd next)) :
    Inv exemptNext (state.put fd connection ep) := by
  intro other found hfound
  by_cases hother : other = fd
  · subst hother
    simp only [State.put, Function.update_self] at hfound
    exact hput found hfound
  · simp only [State.put, Function.update_of_ne hother] at hfound
    obtain ⟨hsound, harmed⟩ := hinv other found hfound
    refine ⟨{ hsound with registered := (hsame.interest other hother).trans hsound.registered },
      fun hne houtput hlevel ↦ ?_⟩
    rw [State.put, hsame.level other hother] at hlevel
    rw [State.put, hsame.ready other hother]
    exact harmed (hexempt other hother hne) houtput hlevel

/-- A sound connection has the right flag. -/
theorem Sound.flag {ep : Epoll} {fd : Fd} {connection : Connection}
    (hsound : Sound ep fd connection) : connection.clientchannel.FlagMirrors ep := by
  unfold Channel.FlagMirrors
  rw [hsound.inepoll, hsound.channel, hsound.registered]
  rfl

/-- Registering a descriptor for the writable event puts it on the ready list when it is
writable. -/
theorem ready_register {ep : Epoll} {fd : Fd} {registration : Registration}
    (hmask : registration.mask &&& EPOLLOUT ≠ 0) (hlevel : ep.level fd &&& EPOLLOUT ≠ 0) :
    (ep.register fd registration).ready fd = true := by
  have hreport : ep.level fd &&& Epoll.reportable registration.mask ≠ 0 :=
    ne_zero_of_out (out_report hlevel hmask)
  simp only [Epoll.register, Function.update_self, Bool.or_eq_true, bne_iff_ne]
  exact .inr hreport

/-! ### Sending -/

/-- `send_inloop` makes its connection sound and armed, and keeps the others. -/
theorem Inv.sendInloop {exempt : Option Fd} {state next : State} {task : Fd × Bytes}
    (hinv : Inv exempt state) (hexempt : exempt = none ∨ exempt = some task.1)
    (hstep : sendInloop state task = some next) :
    Inv none next ∧ next.batch = state.batch := by
  obtain ⟨fd, message⟩ := task
  rw [EdgeTriggering.sendInloop] at hstep
  split at hstep
  · cases hstep
  · rename_i connection hconnection
    obtain ⟨hsound, -⟩ := hinv fd connection hconnection
    rw [sendInloop_of_flagMirrors message hsound.flag] at hstep
    cases hstep
    refine ⟨hinv.put ?_ ?_ ?_, rfl⟩
    · rw [hsound.channel]
      exact sameElse_register _ _ _
    · rintro other hother -
      rcases hexempt with hnone | hsome
      · rw [hnone]
        exact Option.some_ne_none other
      · rw [hsome]
        exact fun heq ↦ hother (Option.some.inj heq)
    · rintro after hafter
      cases hafter
      have hmask : (connection.clientchannel.event ||| EPOLLOUT) &&& EPOLLOUT ≠ 0 := out_or_out _
      refine ⟨{ hsound with
        inepoll := rfl, wanted := fun _ ↦ hmask, registered := ?_ }, fun _ _ hlevel ↦ .inl ?_⟩
      · rw [hsound.channel]
        exact Function.update_self _ _ _
      · rw [hsound.channel]
        exact ready_register hmask hlevel

/-- Running tasks keeps the invariant. -/
theorem Inv.sendAll {tasks : List (Fd × Bytes)} :
    ∀ {state next : State}, Inv none state →
      tasks.foldlM EdgeTriggering.sendInloop state = some next → Inv none next := by
  induction tasks with
  | nil =>
    intro state next hinv hstep
    cases hstep
    exact hinv
  | cons task rest ih =>
    intro state next hinv hstep
    rw [List.foldlM_cons, Option.bind_eq_bind, Option.bind_eq_some_iff] at hstep
    obtain ⟨middle, hfirst, hrest⟩ := hstep
    exact ih (hinv.sendInloop (.inl rfl) hfirst).1 hrest

/-- Answering a message on the thread of the loop makes the connection armed. -/
theorem Inv.handledata {exempt : Option Fd} {state next : State} {fd : Fd} {message : Bytes}
    (hinv : Inv exempt state) (hexempt : exempt = none ∨ exempt = some fd)
    (hstep : handledata fd state message = some next) : Inv none next := by
  rw [EdgeTriggering.handledata] at hstep
  split at hstep
  · cases hstep
  · rename_i connection hconnection
    have hconnected := (hinv fd connection hconnection).1.connected
    rw [Connection.sendmessage, hconnected] at hstep
    exact (hinv.sendInloop hexempt hstep).1

/-- Answering messages keeps the invariant, and makes the connection armed when there are any. -/
theorem Inv.handledataAll {fd : Fd} {messages : List Bytes} :
    ∀ {exempt : Option Fd} {state next : State}, Inv exempt state →
      (exempt = none ∨ exempt = some fd ∧ messages ≠ []) →
      messages.foldlM (EdgeTriggering.handledata fd) state = some next → Inv none next := by
  induction messages with
  | nil =>
    intro exempt state next hinv hexempt hstep
    cases hstep
    rcases hexempt with hnone | ⟨-, hne⟩
    · exact hnone ▸ hinv
    · exact absurd rfl hne
  | cons message rest ih =>
    intro exempt state next hinv hexempt hstep
    rw [List.foldlM_cons, Option.bind_eq_bind, Option.bind_eq_some_iff] at hstep
    obtain ⟨middle, hfirst, hrest⟩ := hstep
    exact ih (hinv.handledata (hexempt.imp_right And.left) hfirst) (.inl rfl) hrest

/-- A call of `sendInloop` on a sound connection leaves it sound and touches no other descriptor. -/
theorem Sound.sendInloop {ep epNext : Epoll} {fd : Fd} {connection after : Connection}
    {message : Bytes} (hsound : Sound ep fd connection)
    (hsend : connection.sendInloop message ep = .ok (after, epNext)) :
    Sound epNext fd after ∧ SameElse fd ep epNext := by
  rw [sendInloop_of_flagMirrors message hsound.flag, hsound.channel] at hsend
  cases hsend
  exact ⟨{ hsound with
    inepoll := rfl, wanted := fun _ ↦ out_or_out _, registered := Function.update_self _ _ _ },
    sameElse_register _ _ _⟩

/-- A call of `sendClient` on a sound connection leaves it sound, touches no other descriptor, and
takes nothing from its input. -/
theorem Sound.sendClient {ep epNext : Epoll} {fd : Fd} {connection after : Connection} {writen : ℤ}
    {events : List Event} (hsound : Sound ep fd connection)
    (hsend : connection.sendClient writen ep = .ok (after, epNext, events)) :
    Sound epNext fd after ∧ SameElse fd ep epNext ∧ epNext.level = ep.level ∧
      (ep.ready fd = true → epNext.ready fd = true) ∧ after.inputbuffer = connection.inputbuffer ∧
      (connection.clientchannel.event &&& EPOLLIN ≠ 0 →
        after.clientchannel.event &&& EPOLLIN ≠ 0) := by
  rw [sendClient_of_flagMirrors writen hsound.flag] at hsend
  by_cases hunsent : connection.unsent writen = []
  · rw [if_pos hunsent, hsound.channel] at hsend
    cases hsend
    refine ⟨?_, sameElse_register _ _ _, rfl, fun hready ↦ ?_, rfl, ?_⟩
    · exact { hsound with
        inepoll := rfl, wanted := fun h ↦ absurd rfl h, registered := Function.update_self _ _ _ }
    · rw [Epoll.register]
      dsimp only
      rw [Function.update_self, hready, Bool.true_or]
    · exact (in_and_not_out _).mpr
  · rw [if_neg hunsent] at hsend
    cases hsend
    have houtput : connection.outputbuffer.buf ≠ [] := by
      intro hempty
      exact hunsent (by rw [unsent, hempty, List.drop_nil])
    exact ⟨{ hsound with wanted := fun _ ↦ hsound.wanted houtput }, .refl _ _, rfl, id, rfl, id⟩

/-- A drain leaves its connection sound, and calls neither the close nor the error callback. -/
theorem Sound.drain {ep : Epoll} {fd : Fd} {connection drained : Connection} {ambient : Ambient}
    {events : List Event} {more : Bytes} (hsound : Sound ep fd connection)
    (hdrain : drain ambient 0 { connection with
      inputbuffer := connection.inputbuffer.append more } = .ok (drained, events)) :
    Sound ep fd drained ∧ .closecallback ∉ events ∧ .errorcallback ∉ events := by
  obtain ⟨dispatched, left, rfl, rfl, -⟩ := drain_ok hdrain
  refine ⟨{ hsound with }, ?_, ?_⟩ <;> simp [dispatches, hsound.messagecallback]

/-! ### Handling an event -/

/-- Deleting a connection keeps the others. -/
theorem Inv.leave {state : State} {fd : Fd} {connection : Connection} {ep : Epoll}
    {events : List Event} (hinv : Inv (some fd) state) (hsame : SameElse fd state.ep ep)
    (hevents : .closecallback ∈ events ∨ .errorcallback ∈ events) :
    Inv none (leave state fd connection ep events) := by
  rw [EdgeTriggering.leave, if_pos hevents]
  refine hinv.put (hsame.trans (sameElse_close ep fd)) ?_ fun _ hnext ↦ by cases hnext
  exact fun other hother _ heq ↦ hother (Option.some.inj heq)

/-- `remove` touches no other descriptor. -/
theorem Sound.remove {ep : Epoll} {fd : Fd} {connection : Connection}
    (hsound : Sound ep fd connection) {clientchannel : Channel} {epNext : Epoll}
    (hremove : connection.clientchannel.remove ep = .ok (clientchannel, epNext)) :
    SameElse fd ep epNext := by
  rw [Channel.remove_of_flagMirrors hsound.flag, hsound.channel] at hremove
  cases hremove
  exact sameElse_register _ _ _

/-- A drain changes neither the channel nor the output of its connection. -/
theorem Inv.drain {state : State} {fd : Fd} {connection : Connection} (exempt : Option Fd)
    (ambient : Ambient) (dispatched : List Bytes) (left : Bytes) (hinv : Inv (some fd) state)
    (hsound : Sound state.ep fd connection)
    (harmed : some fd ≠ exempt → Armed state.ep state.batch fd connection) :
    Inv exempt (state.put fd (some (connection.drained ambient 0 dispatched left))
      (state.ep.lower fd EPOLLIN)) := by
  refine hinv.put (sameElse_lower _ _ _)
    (fun other hother _ heq ↦ hother (Option.some.inj heq)) fun next hnext ↦ ?_
  cases hnext
  refine ⟨⟨hsound.channel, hsound.registered, hsound.inepoll, hsound.connected,
    hsound.closecallback, hsound.errorcallback, hsound.messagecallback, hsound.wanted⟩, ?_⟩
  intro hne houtput hlevel
  rw [Epoll.level_lower, Function.update_self, out_and_not_in] at hlevel
  exact harmed hne houtput hlevel

/-- What is armed before its report is served, and needs no rearming, is armed without the
report. -/
theorem Armed.of_served {ep : Epoll} {batch : List Pointer} {fd : Fd} {connection : Connection}
    (harmed : Armed ep (.connection fd :: batch) fd connection)
    (hserved : connection.outputbuffer.buf = [] ∨ connection.clientchannel.revent &&& EPOLLOUT = 0 ∨
      ep.ready fd = true) : Armed ep batch fd connection := by
  intro houtput hlevel
  rcases hserved with hempty | hnotOut | hready
  · exact absurd hempty houtput
  · rcases harmed houtput hlevel with hready | ⟨-, hout⟩
    · exact .inl hready
    · exact absurd hnotOut hout
  · exact .inl hready

/-- A connection with the bytes of some results of `read` in its input buffer. -/
def received (connection : Connection) (results : List ReadResult) : Connection :=
  { connection with inputbuffer := connection.inputbuffer.append (bytesOf results) }

/-- What a call of `onmessage` on a sound connection does: it dispatches messages, or it takes the
channel out of the loop and closes. -/
theorem Sound.onmessage {ep epNext : Epoll} {fd : Fd} {connection final : Connection}
    {ambient : Ambient} {results : List ReadResult} {events : List Event}
    (hsound : Sound ep fd connection)
    (hmessage : connection.onmessage ambient results ep = .ok (.returned final epNext events)) :
    (endsWithEof results = false ∧ epNext = ep ∧ .closeClient ∉ events ∧
      (∃ left, final = (received connection results).drained ambient 0 (messages events) left) ∧
      (messages events ≠ [] ↔ ∃ found ∈ frameParser.next
        (connection.inputbuffer.buf ++ bytesOf results), found.1 ≠ noMessage)) ∨
    (endsWithEof results = true ∧ SameElse fd ep epNext ∧ .closeClient ∈ events ∧
      .closecallback ∈ events) := by
  rcases onmessage_returned _ _ _ hmessage with ⟨hopen, rfl, hdrain⟩ | ⟨heof, hremove, rfl, -⟩
  · obtain ⟨dispatched, left, hfinal, hevents, hdispatched⟩ := drain_ok hdrain
    have hmessages : messages events = dispatched := by
      rw [hevents]
      exact (messages_dispatches _ _).trans (if_pos hsound.messagecallback)
    rw [hmessages]
    refine .inl ⟨hopen, rfl, ?_, ⟨left, hfinal⟩, hdispatched⟩
    simp [hevents, dispatches, hsound.messagecallback]
  · refine .inr ⟨heof, hsound.remove hremove, List.mem_cons_self, ?_⟩
    rw [hsound.closecallback]
    exact List.mem_cons_of_mem _ List.mem_cons_self

/-- The read branch of a rearming step restores the invariant. -/
theorem Inv.read {workers : ℕ} {state next : State} {fd : Fd} {connection final : Connection}
    {circumstances : Circumstances} {ep : Epoll} {events : List Event}
    (hinv : Inv (some fd) state) (hsound : Sound state.ep fd connection)
    (harmed : Armed state.ep (.connection fd :: state.batch) fd connection)
    (hread : Channel.handleevent connection.clientchannel.revent = .read)
    (hrearms : Rearms workers state fd connection circumstances)
    (hmessage : connection.onmessage circumstances.ambient circumstances.results state.ep =
      .ok (.returned final ep events))
    (hstep : (if .closeClient ∈ events then some (EdgeTriggering.leave state fd final ep events)
      else
        let drained := state.put fd (some final) (ep.lower fd EPOLLIN)
        if workers = 0 then (messages events).foldlM (EdgeTriggering.handledata fd) drained
        else some drained) = some next) :
    Inv none next := by
  rcases hsound.onmessage hmessage with ⟨hopen, rfl, hstays, ⟨left, hfinal⟩, hdispatched⟩ |
    ⟨heof, hsame, hcloses, hcallback⟩
  · have hreceived : Sound state.ep fd (received connection circumstances.results) :=
      { hsound with }
    rw [if_neg hstays, hfinal] at hstep
    dsimp only at hstep
    have hserved (h : connection.outputbuffer.buf = [] ∨
        connection.clientchannel.revent &&& EPOLLOUT = 0 ∨ state.ep.ready fd = true) :
        Inv none next := by
      have hdrained := hinv.drain none circumstances.ambient (messages events) left hreceived
        fun _ ↦ harmed.of_served h
      split_ifs at hstep
      · exact hdrained.handledataAll (.inl rfl) hstep
      · cases hstep
        exact hdrained
    rcases hrearms hread with hempty | hnotOut | hready | heof | ⟨hself, hfound⟩
    · exact hserved (.inl hempty)
    · exact hserved (.inr (.inl hnotOut))
    · exact hserved (.inr (.inr hready))
    · rw [hopen] at heof
      cases heof
    · rw [if_pos hself] at hstep
      exact (hinv.drain (some fd) circumstances.ambient (messages events) left hreceived fun hne ↦
        absurd rfl hne).handledataAll (.inr ⟨rfl, hdispatched.mpr hfound⟩) hstep
  · rw [if_pos hcloses] at hstep
    cases hstep
    exact hinv.leave hsame (.inl hcallback)

/-- The write branch restores the invariant: what is left in the output buffer was refused by a
socket that is not writable any more. -/
theorem Inv.write {state : State} {fd : Fd} {connection final : Connection} {writen : ℤ}
    {ep : Epoll} {events : List Event} (hinv : Inv (some fd) state)
    (hsound : Sound state.ep fd connection)
    (hsend : connection.sendClient writen state.ep = .ok (final, ep, events)) :
    Inv none (state.put fd (some final)
      (if writen < connection.outputbuffer.size then ep.lower fd EPOLLOUT else ep)) := by
  have hothers : ∀ other, other ≠ fd → some other ≠ none → some other ≠ some fd :=
    fun other hother _ heq ↦ hother (Option.some.inj heq)
  rw [sendClient_of_flagMirrors writen hsound.flag] at hsend
  by_cases hunsent : connection.unsent writen = []
  · rw [if_pos hunsent, hsound.channel] at hsend
    cases hsend
    refine hinv.put ?_ hothers fun next hnext ↦ ?_
    · split_ifs
      · exact (sameElse_register _ _ _).trans (sameElse_lower _ _ _)
      · exact sameElse_register _ _ _
    · cases hnext
      refine ⟨{ hsound with inepoll := rfl, wanted := fun h ↦ absurd rfl h, registered := ?_ },
        fun _ h ↦ absurd rfl h⟩
      split_ifs <;> exact Function.update_self _ _ _
  · rw [if_neg hunsent] at hsend
    cases hsend
    have hshort : writen < connection.outputbuffer.size := by
      by_contra hall
      refine hunsent (List.drop_eq_nil_of_le ?_)
      simp only [Buffer.size] at hall
      omega
    have houtput : connection.outputbuffer.buf ≠ [] := by
      intro hempty
      exact hunsent (by rw [unsent, hempty, List.drop_nil])
    rw [if_pos hshort]
    refine hinv.put (sameElse_lower _ _ _) hothers fun next hnext ↦ ?_
    cases hnext
    refine ⟨{ hsound with wanted := fun _ ↦ hsound.wanted houtput }, fun _ _ hlevel ↦ ?_⟩
    rw [Epoll.level_lower, Function.update_self] at hlevel
    exact absurd (out_and_not_out _) hlevel

/-- Handling a report in a rearming step restores the invariant. -/
theorem Inv.handle {workers : ℕ} {state next : State} {fd : Fd} {connection : Connection}
    {circumstances : Circumstances} (hinv : Inv (some fd) state)
    (hsound : Sound state.ep fd connection)
    (harmed : Armed state.ep (.connection fd :: state.batch) fd connection)
    (hrearms : Rearms workers state fd connection circumstances)
    (hstep : handle workers state fd connection circumstances = some next) : Inv none next := by
  rw [EdgeTriggering.handle] at hstep
  split at hstep
  · split at hstep
    · cases hstep
    · rename_i clientchannel ep hremove
      cases hstep
      refine hinv.leave (hsound.remove hremove) (.inl ?_)
      simp [closeClient, hsound.closecallback]
  · rename_i hread
    split at hstep
    · rename_i final ep events hmessage
      exact hinv.read hsound harmed hread hrearms hmessage hstep
    · cases hstep
  · rw [Option.ite_none_left_eq_some] at hstep
    obtain ⟨-, hstep⟩ := hstep
    split at hstep
    · cases hstep
    · rename_i final ep events hsend
      cases hstep
      exact hinv.write hsound hsend
  · split at hstep
    · cases hstep
    · rename_i clientchannel ep hremove
      cases hstep
      refine hinv.leave (hsound.remove hremove) (.inr ?_)
      simp [errorClient, hsound.errorcallback]

/-! ### Reporting -/

/-- A larger batch keeps the invariant. -/
theorem Inv.enlarge {exempt : Option Fd} {state : State} (hinv : Inv exempt state)
    {batch : List Pointer} (hbatch : state.batch ⊆ batch) :
    Inv exempt { state with batch } := by
  intro fd connection hconnection
  obtain ⟨hsound, harmed⟩ := hinv fd connection hconnection
  exact ⟨hsound, fun hne houtput hlevel ↦
    (harmed hne houtput hlevel).imp_right fun h ↦ ⟨hbatch h.1, h.2⟩⟩

/-- A writable connection with output is reported as writable. -/
theorem Sound.report {ep : Epoll} {fd : Fd} {connection : Connection}
    (hsound : Sound ep fd connection) (houtput : connection.outputbuffer.buf ≠ [])
    (hlevel : ep.level fd &&& EPOLLOUT ≠ 0) : ep.report fd &&& EPOLLOUT ≠ 0 := by
  rw [Epoll.report, hsound.registered]
  exact out_report hlevel (hsound.wanted houtput)

/-- A descriptor taken off the ready list is armed by its report, when the report has the writable
event or is still to be handled. -/
theorem Inv.take {state : State} {fd : Fd} {connection : Connection} (hinv : Inv none state)
    (hconnection : state.connections fd = some connection)
    (hreport : state.ep.report fd ≠ 0 → .connection fd ∈ state.batch) :
    Inv none (state.put fd (some { connection with
      clientchannel := connection.clientchannel.setrevents (state.ep.report fd) })
        (state.ep.take fd)) := by
  obtain ⟨hsound, -⟩ := hinv fd connection hconnection
  refine hinv.put (sameElse_take _ _) (fun _ _ hne ↦ hne) fun next hnext ↦ ?_
  cases hnext
  refine ⟨{ hsound with
    registered := by rw [Epoll.interest_take]; exact hsound.registered }, ?_⟩
  intro _ houtput hlevel
  rw [Epoll.level_take] at hlevel
  have hout : state.ep.report fd &&& EPOLLOUT ≠ 0 := hsound.report houtput hlevel
  exact .inr ⟨hreport (ne_zero_of_out hout), hout⟩

/-- Reporting any descriptors keeps the invariant. -/
theorem Inv.report {reported : List Pointer} :
    ∀ {state : State}, Inv none state → Inv none (report state reported) := by
  induction reported with
  | nil => exact fun hinv ↦ hinv
  | cons pointer rest ih =>
    intro state hinv
    cases pointer with
    | wakeup => exact ih (hinv.enlarge (List.subset_append_left _ _))
    | connection fd =>
      rw [EdgeTriggering.report]
      split
      · exact ih hinv
      · rename_i connection hconnection
        dsimp only
        split_ifs with hzero
        · exact ih (hinv.take hconnection fun hne ↦ absurd hzero hne)
        · have hlarger := hinv.enlarge (List.subset_append_left state.batch [.connection fd])
          exact ih (hlarger.take hconnection fun _ ↦ List.mem_append_right _ List.mem_cons_self)

/-! ### Runs -/

/-- A connection that is accepted has no output yet. -/
theorem Inv.accept {state : State} (hinv : Inv none state) (fd : Fd) (this : ℕ) (now : ℤ)
    (level : EventMask) :
    Inv none (state.put fd (some (published this fd now))
      (Epoll.register { state.ep with level := Function.update state.ep.level fd level } fd
        ⟨EPOLLET ||| EPOLLIN, this⟩)) := by
  refine hinv.put ⟨fun _ hne ↦ Function.update_of_ne hne _ _,
    fun _ hne ↦ Function.update_of_ne hne _ _, fun _ hne ↦ Function.update_of_ne hne _ _⟩
    (fun _ _ hne ↦ hne) fun next hnext ↦ ?_
  cases hnext
  exact ⟨⟨rfl, Function.update_self _ _ _, rfl, rfl, rfl, rfl, rfl, fun h ↦ absurd rfl h⟩,
    fun _ h ↦ absurd rfl h⟩

/-- A writable edge on a connection with output puts it on the ready list. -/
theorem Inv.raise {state : State} (hinv : Inv none state) (fd : Fd) (events : EventMask) :
    Inv none { state with ep := state.ep.raise fd events } := by
  intro other connection hconnection
  obtain ⟨hsound, harmed⟩ := hinv other connection hconnection
  refine ⟨{ hsound with registered := hsound.registered }, fun hne houtput hlevel ↦ ?_⟩
  have hsame := sameElse_raise state.ep fd events
  by_cases hother : other = fd
  · subst hother
    simp only [Epoll.raise, Function.update_self, hsound.registered, Bool.or_eq_true,
      bne_iff_ne] at hlevel ⊢
    rw [out_or] at hlevel
    rcases hlevel with hold | hnew
    · exact (harmed hne houtput hold).imp_left .inl
    · exact .inl (.inr (ne_zero_of_out (out_report hnew (hsound.wanted houtput))))
  · rw [hsame.level other hother] at hlevel
    rw [hsame.ready other hother]
    exact harmed hne houtput hlevel

/-- A channel taken off the batch is exempt until it is handled. -/
theorem Inv.pop {state : State} {pointer : Pointer} {rest : List Pointer} {exempt : Option Fd}
    (hinv : Inv none state) (hbatch : state.batch = pointer :: rest)
    (hexempt : ∀ fd, some fd ≠ exempt → .connection fd ≠ pointer) :
    Inv exempt { state with batch := rest } := by
  intro fd connection hconnection
  obtain ⟨hsound, harmed⟩ := hinv fd connection hconnection
  refine ⟨hsound, fun hne houtput hlevel ↦ ?_⟩
  refine (harmed (Option.some_ne_none fd) houtput hlevel).imp_right fun h ↦ ⟨?_, h.2⟩
  rw [hbatch] at h
  exact (List.mem_cons.mp h.1).resolve_left (hexempt fd hne)

/-- A rearming step keeps the invariant. -/
theorem Inv.step {workers : ℕ} {state next : State} {label : Label} (hinv : Inv none state)
    (hrearming : Rearming workers state label) (hstep : step workers state label = some next) :
    Inv none next := by
  cases label with
  | accept fd this now level =>
    rw [EdgeTriggering.step, Option.ite_none_right_eq_some] at hstep
    cases hstep.2
    exact hinv.accept fd this now level
  | raise fd events =>
    cases hstep
    exact hinv.raise fd events
  | epollWait reported =>
    rw [EdgeTriggering.step, Option.ite_none_right_eq_some] at hstep
    cases hstep.2
    exact hinv.report
  | handleevent circumstances =>
    rw [EdgeTriggering.step] at hstep
    split at hstep
    · rename_i fd rest hbatch
      split at hstep
      · cases hstep
      · rename_i connection hconnection
        obtain ⟨hsound, harmed⟩ := hinv fd connection hconnection
        have hpop : Inv (some fd) { state with batch := rest } := by
          refine hinv.pop hbatch fun other hne heq ↦ ?_
          cases heq
          exact hne rfl
        have hrearms : Rearms workers state fd connection circumstances :=
          hrearming (fd, connection) (by simp [State.current, hbatch, hconnection])
        rw [hbatch] at harmed
        exact hpop.handle hsound (harmed (Option.some_ne_none fd)) hrearms hstep
    · cases hstep
  | handleWakeup tasks =>
    rw [EdgeTriggering.step] at hstep
    split at hstep
    · rename_i rest hbatch
      exact (hinv.pop hbatch fun _ _ heq ↦ by cases heq).sendAll hstep
    · cases hstep

/-- A loop without connections meets the invariant. -/
theorem Inv.initial {state : State} (hinitial : Initial state) : Inv none state := by
  intro fd connection hconnection
  rw [hinitial.connections] at hconnection
  cases hconnection

/-- In a run whose steps are rearming the invariant holds. -/
theorem inv_of_rearming {workers : ℕ} {state : State}
    (hreach : (system workers).ReachesUnder (Rearming workers) state) : Inv none state :=
  hreach.invariant (Inv none) (fun _ ↦ Inv.initial)
    fun _ _ _ hinv hrearming hstep ↦ hinv.step hrearming hstep

/-- At `epoll_wait`, a connection whose socket is writable and not on the ready list has nothing to
send. -/
theorem Inv.output_eq_nil {state : State} {fd : Fd} {connection : Connection}
    (hinv : Inv none state) (hconnection : state.connections fd = some connection)
    (hbatch : state.batch = []) (hready : state.ep.ready fd = false)
    (hlevel : state.ep.level fd &&& EPOLLOUT ≠ 0) : connection.outputbuffer.buf = [] := by
  by_contra houtput
  have harmed := (hinv fd connection hconnection).2 (Option.some_ne_none fd) houtput hlevel
  rw [hready, hbatch] at harmed
  simp at harmed

/-- In a run whose steps are rearming no output is ever stranded. -/
theorem not_stranded (workers : ℕ) {state : State}
    (hreach : (system workers).ReachesUnder (Rearming workers) state) : ¬ Stranded state := by
  rintro ⟨hbatch, fd, connection, hconnection, houtput, hlevel, hready⟩
  rcases (inv_of_rearming hreach fd connection hconnection).2 (Option.some_ne_none fd) houtput
    hlevel with hlisted | ⟨hmem, -⟩
  · rw [hready] at hlisted
    cases hlisted
  · rw [hbatch] at hmem
    cases hmem

/-- Serving the last channel of a report without rearming strands the output of its connection, when
the socket is still writable. -/
theorem stranded_of_not_rearms {workers : ℕ} {state next : State} {fd : Fd}
    {connection : Connection} {circumstances : Circumstances} (hinv : Inv none state)
    (hbatch : state.batch = [.connection fd]) (hconnection : state.connections fd = some connection)
    (hlevel : state.ep.level fd &&& EPOLLOUT ≠ 0)
    (hnot : ¬ Rearms workers state fd connection circumstances)
    (hstep : step workers state (.handleevent circumstances) = some next) : Stranded next := by
  simp only [Rearms, Classical.not_imp, not_or, not_and_or, Bool.not_eq_true] at hnot
  obtain ⟨hread, houtput, -, hready, hopen, hunanswered⟩ := hnot
  obtain ⟨hsound, -⟩ := hinv fd connection hconnection
  simp only [EdgeTriggering.step, hbatch, hconnection, handle, hread] at hstep
  split at hstep
  · rename_i final ep events hmessage
    rcases hsound.onmessage hmessage with ⟨-, rfl, hstays, ⟨left, hfinal⟩, hdispatched⟩ |
      ⟨heof, -⟩
    · rw [if_neg hstays, hfinal] at hstep
      have hnext : next = State.put { state with batch := [] } fd
          (some ((received connection circumstances.results).drained circumstances.ambient 0
            (messages events) left)) (state.ep.lower fd EPOLLIN) := by
        split_ifs at hstep with hself
        · have hnone : messages events = [] := by
            by_contra hsome
            exact hunanswered.elim (absurd hself) (absurd (hdispatched.mp hsome))
          rw [hnone] at hstep ⊢
          exact (Option.some.inj hstep).symm
        · exact (Option.some.inj hstep).symm
      subst hnext
      refine ⟨rfl, fd, _, Function.update_self _ _ _, houtput, ?_, hready⟩
      rw [State.put, Epoll.level_lower, Function.update_self, out_and_not_in]
      exact hlevel
    · rw [hopen] at heof
      cases heof
  · cases hstep

/-- A loop without connections, on a new epoll instance. -/
def start : State := ⟨fun _ ↦ none, .epollCreate, []⟩

theorem start_initial : Initial start := ⟨rfl, rfl⟩

/-- A reply of two bytes is queued, sent half, and the rest waits for the next writable edge. -/
theorem not_stranded_short :
    ∃ state, (system 1).ReachesUnder (Rearming 1) state ∧ state.batch = [] ∧
      (state.connections 7).map (fun connection ↦ connection.outputbuffer.buf) = some [98] ∧
      ¬ Stranded state := by
  have hreach : ∃ state, (system 1).ReachesUnder (Rearming 1) state ∧ state.batch = [] ∧
      (state.connections 7).map (fun connection ↦ connection.outputbuffer.buf) = some [98] := by
    refine ⟨_, .of_run (.initial start_initial)
      [.accept 7 1 0 EPOLLOUT, .epollWait [.wakeup], .handleWakeup [(7, [97, 98])],
        .epollWait [.connection 7], .handleevent ⟨.still, [], 1⟩, .raise 7 EPOLLOUT] ?_ rfl, ?_, ?_⟩
    · decide
    · rfl
    · rfl
  obtain ⟨state, hstate, hbatch, houtput⟩ := hreach
  exact ⟨state, hstate, hbatch, houtput, not_stranded 1 hstate⟩

/-- While a reply waits to be sent, one byte of the next request arrives: the report of both events
is served by reading the byte. -/
theorem stranded_partial :
    ¬ ∀ state, (system 1).Reachable state → ¬ Stranded state := by
  intro hnever
  let connection : Connection := { published 7 7 0 with
    outputbuffer := ⟨[97]⟩
    clientchannel := ⟨7, 7, true, EPOLLET ||| EPOLLIN ||| EPOLLOUT, EPOLLIN ||| EPOLLOUT⟩ }
  have hreach : ∃ state, (system 1).ReachesUnder (Rearming 1) state ∧
      state.batch = [.connection 7] ∧ state.connections 7 = some connection ∧
      state.ep.level 7 &&& EPOLLOUT ≠ 0 ∧ state.ep.ready 7 = false := by
    refine ⟨_, .of_run (.initial start_initial)
      [.accept 7 7 0 EPOLLOUT, .epollWait [.wakeup], .handleWakeup [(7, [97])],
        .raise 7 EPOLLIN, .epollWait [.connection 7]] ?_ rfl, rfl, rfl, ?_, rfl⟩
    · decide
    · decide
  obtain ⟨state, hstate, hbatch, hconnection, hlevel, hready⟩ := hreach
  let chunk : Chunk := ⟨[0], by decide⟩
  let circumstances : Circumstances := ⟨.still, [.data chunk, .failed EAGAIN], 0⟩
  have hmessage : connection.onmessage .still [.data chunk, .failed EAGAIN] state.ep = _ :=
    onmessage_incomplete .still chunk state.ep rfl (by decide)
  have hstep : ∃ next, (system 1).step state (.handleevent circumstances) = some next := by
    have hread : Channel.handleevent connection.clientchannel.revent = .read := by decide
    simp only [system, step, hbatch, hconnection, handle, hread, circumstances, hmessage]
    exact ⟨_, rfl⟩
  obtain ⟨next, hnext⟩ := hstep
  have hreached : (system 1).Reachable next := .step hstate.reachable trivial hnext
  refine hnever next hreached
    (stranded_of_not_rearms (inv_of_rearming hstate) hbatch hconnection hlevel ?_ hnext)
  rw [Rearms, hready]
  decide

end Reactor.EdgeTriggering
