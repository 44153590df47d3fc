import Reactor.MainThread
import Reactor.MessageFraming

/-!
# Pending input under edge triggering

The other direction of `EdgeTriggering`: what has arrived at the sockets of a sub-loop and has not
been read. To the sub-loop and the main thread of `MainThread` the state adds, for each descriptor,
the bytes that have arrived and have not been read (`unread`), those that `onmessage` has read
(`received`), and the messages that the drain has dispatched (`dispatched`). No function of the
server looks at these. A call of `onmessage` reads until `EAGAIN` or the end of the stream, and with
that all that is unread. The number of workers is a parameter, and `handle_wakeup` may run any
`send_inloop` tasks.

In undisturbed runs input is never stranded: a report of several events that has the readable one is
served by the read branch, or by a branch that closes. So when the loop is back at `epoll_wait` and
a connection is not on the ready list, nothing that has arrived is unread, and every request
received has been dispatched, unless a `" "` stopped the drain (`dispatched_at_rest`).
-/

set_option autoImplicit false
set_option relaxedAutoImplicit false

namespace Reactor.PendingInput

open Library Buffer Connection
open EdgeTriggering (Circumstances Pointer Sound SameElse)

structure State extends MainThread.State where
  unread : Fd → Bytes
  received : Fd → Bytes
  dispatched : Fd → List Bytes

inductive Label
  | accept (fd : Fd) (this : ℕ) (now : ℤ) (level : EventMask) (early : Bytes)
  | arrive (fd : Fd) (bytes : Bytes)
  | raise (fd : Fd) (events : EventMask)
  | epollWait (reported : List Pointer)
  | handleevent (circumstances : Circumstances)
  | handleWakeup (tasks : List (Fd × Bytes))
  | main (action : MainThread.Action)

/-- The step of the sub-loop, or of the main thread, that a step is. -/
def Label.ofServer : Label → MainThread.Label
  | .accept fd this now level _ => .loop (.accept fd this now level)
  | .arrive fd _ => .loop (.raise fd EPOLLIN)
  | .raise fd events => .loop (.raise fd events)
  | .epollWait reported => .loop (.epollWait reported)
  | .handleevent circumstances => .loop (.handleevent circumstances)
  | .handleWakeup tasks => .loop (.handleWakeup tasks)
  | .main action => .main action

/-- The messages that the next handler dispatches. -/
def found (loop : EdgeTriggering.State) (circumstances : Circumstances) : List Bytes :=
  match loop.current with
  | none => []
  | some (_, connection) =>
    match Channel.handleevent connection.clientchannel.revent with
    | .read =>
      match connection.onmessage circumstances.ambient circumstances.results loop.ep with
      | .ok (.returned _ _ events) => messages events
      | _ => []
    | _ => []

/-- What a step adds to the streams. Bytes that arrive before a connection is accepted make its
socket readable, and a handler that reads finds what is unread. -/
def streams (state : State) : Label → Option State
  | .accept fd _ _ level early =>
    if early ≠ [] → level &&& EPOLLIN ≠ 0 then
      some { state with
        unread := Function.update state.unread fd early
        received := Function.update state.received fd []
        dispatched := Function.update state.dispatched fd [] }
    else none
  | .arrive fd bytes =>
    some { state with unread := Function.update state.unread fd (state.unread fd ++ bytes) }
  | .handleevent circumstances =>
    match state.loop.current with
    | none => none
    | some (fd, connection) =>
      match Channel.handleevent connection.clientchannel.revent with
      | .read =>
        if bytesOf circumstances.results = state.unread fd then
          some { state with
            unread := Function.update state.unread fd []
            received := Function.update state.received fd (state.received fd ++ state.unread fd)
            dispatched := Function.update state.dispatched fd
              (state.dispatched fd ++ found state.facing circumstances) }
        else none
      | _ => some state
  | _ => some state

section Steps

variable (workers : ℕ)

def step (state : State) (label : Label) : Option State :=
  match MainThread.step workers state.toState label.ofServer, streams state label with
  | some server, some next => some { next with toState := server }
  | _, _ => none

/-- The sub-loop, the main thread and what arrives, for a number of worker threads. -/
def system : TransitionSystem State Label where
  initial := fun state ↦ MainThread.Initial state.toState
  step := step workers

end Steps

/-- A step that the main thread does not disturb. -/
def Undisturbed (state : State) (label : Label) : Prop :=
  MainThread.Undisturbed state.toState label.ofServer

instance (state : State) (label : Label) : Decidable (Undisturbed state label) :=
  inferInstanceAs (Decidable (MainThread.Undisturbed state.toState label.ofServer))

/-! ### Sending on the thread of the loop -/

/-- Some bytes have gone into the output buffer of a connection, and nothing else that matters has
changed. -/
structure Grows (ep : Epoll) (fd : Fd) (connection : Connection) (added : Bytes) (epNext : Epoll)
    (next : Connection) : Prop where
  sound : Sound epNext fd next
  same : SameElse fd ep epNext
  level : epNext.level fd = ep.level fd
  ready : ep.ready fd = true → epNext.ready fd = true
  inputbuffer : next.inputbuffer = connection.inputbuffer
  wants : connection.clientchannel.event &&& EPOLLIN ≠ 0 → next.clientchannel.event &&& EPOLLIN ≠ 0
  revent : next.clientchannel.revent = connection.clientchannel.revent
  outputbuffer : next.outputbuffer.buf = connection.outputbuffer.buf ++ added

theorem Grows.refl {ep : Epoll} {fd : Fd} {connection : Connection}
    (hsound : Sound ep fd connection) : Grows ep fd connection [] ep connection :=
  ⟨hsound, .refl _ _, rfl, id, rfl, id, rfl, (List.append_nil _).symm⟩

theorem Grows.trans {ep middle final : Epoll} {fd : Fd} {connection between next : Connection}
    {first second : Bytes} (hfirst : Grows ep fd connection first middle between)
    (hsecond : Grows middle fd between second final next) :
    Grows ep fd connection (first ++ second) final next where
  sound := hsecond.sound
  same := hfirst.same.trans hsecond.same
  level := hsecond.level.trans hfirst.level
  ready := hsecond.ready ∘ hfirst.ready
  inputbuffer := hsecond.inputbuffer.trans hfirst.inputbuffer
  wants := hsecond.wants ∘ hfirst.wants
  revent := hsecond.revent.trans hfirst.revent
  outputbuffer := by rw [hsecond.outputbuffer, hfirst.outputbuffer, List.append_assoc]

section Answering

variable {state next : EdgeTriggering.State} {fd : Fd} {connection : Connection}

/-- `send_inloop` puts a message into the output buffer. -/
theorem sendInloop_grows {message : Bytes} (hconnection : state.connections fd = some connection)
    (hsound : Sound state.ep fd connection)
    (hsend : EdgeTriggering.sendInloop state (fd, message) = some next) :
    ∃ after ep, next = state.put fd (some after) ep ∧
      Grows state.ep fd connection message ep after := by
  rw [EdgeTriggering.sendInloop, hconnection] at hsend
  dsimp only at hsend
  rw [sendInloop_of_flagMirrors _ hsound.flag] at hsend
  cases hsend
  obtain ⟨hafter, hsame⟩ := hsound.sendInloop (sendInloop_of_flagMirrors _ hsound.flag)
  refine ⟨_, _, rfl, hafter, hsame, rfl, ?_, rfl, ?_, rfl, rfl⟩
  · intro hready
    rw [hsound.channel, Epoll.register]
    dsimp only
    rw [Function.update_self, hready, Bool.true_or]
  · exact fun hwants ↦ (in_or _ _).mpr (.inl hwants)

/-- `Handledata` puts the reply to a message into the output buffer. -/
theorem handledata_grows {message : Bytes} (hconnection : state.connections fd = some connection)
    (hsound : Sound state.ep fd connection)
    (hstep : EdgeTriggering.handledata fd state message = some next) :
    ∃ after ep, next = state.put fd (some after) ep ∧
      Grows state.ep fd connection (ReplyPipeline.handledata message) ep after := by
  rw [EdgeTriggering.handledata, hconnection] at hstep
  dsimp only at hstep
  rw [Connection.sendmessage, hsound.connected] at hstep
  exact sendInloop_grows hconnection hsound hstep

/-- Answering messages puts their replies into the output buffer, in order. -/
theorem handledataAll_grows (messages : List Bytes) :
    ∀ {state : EdgeTriggering.State} {connection : Connection},
      state.connections fd = some connection → Sound state.ep fd connection →
        messages.foldlM (EdgeTriggering.handledata fd) state = some next →
          ∃ after ep, next = state.put fd (some after) ep ∧
            Grows state.ep fd connection (messages.flatMap ReplyPipeline.handledata) ep after := by
  induction messages with
  | nil =>
    intro state connection hconnection hsound hstep
    obtain rfl : state = next := Option.some.inj hstep
    refine ⟨connection, state.ep, ?_, .refl hsound⟩
    rw [EdgeTriggering.State.put, Function.update_eq_self_iff.mpr hconnection.symm]
  | cons message rest ih =>
    intro state connection hconnection hsound hstep
    rw [List.foldlM_cons, Option.bind_eq_bind, Option.bind_eq_some_iff] at hstep
    obtain ⟨middle, hfirst, hrest⟩ := hstep
    obtain ⟨between, epBetween, rfl, hgrows⟩ := handledata_grows hconnection hsound hfirst
    obtain ⟨after, ep, rfl, hlater⟩ := ih (Function.update_self _ _ _) hgrows.sound hrest
    refine ⟨after, ep, ?_, hgrows.trans hlater⟩
    simp only [EdgeTriggering.State.put, Function.update_idem]

end Answering

/-! ### Handling an event -/

/-- A drain that succeeded consumed requests, dispatched those other than `" "`, and left no
complete one behind unless a `" "` stopped it. -/
theorem drain_consumed {ambient : Ambient} {connection final : Connection} {events : List Event}
    (hset : connection.messagecallback = true)
    (hdrain : connection.drain ambient 0 = .ok (final, events)) :
    ∃ consumed, frameParser.Advances connection.inputbuffer.buf consumed final.inputbuffer.buf ∧
      messages events = consumed.filter (fun request ↦ request ≠ noMessage) ∧
      (frameParser.next final.inputbuffer.buf = none ∨
        ∃ front, consumed = front ++ [noMessage]) := by
  obtain ⟨dispatched, left, hnot, hcases⟩ := drain_cases ambient 0 connection
  have hmessages : messages (connection.dispatches dispatched) = dispatched := by
    rw [messages_dispatches, if_pos hset]
  have hall : dispatched.filter (fun request ↦ request ≠ noMessage) = dispatched :=
    List.filter_eq_self.mpr fun request hrequest ↦
      decide_eq_true fun heq ↦ hnot (heq ▸ hrequest)
  rcases hcases with ⟨hadvance, hdone, -, hok⟩ | ⟨hadvance, hok⟩ | ⟨-, -, fault, herror⟩
  · rw [hok] at hdrain
    cases hdrain
    exact ⟨dispatched, hadvance, hmessages.trans hall.symm, .inl hdone⟩
  · rw [hok] at hdrain
    cases hdrain
    refine ⟨dispatched ++ [noMessage], hadvance, ?_, .inr ⟨dispatched, rfl⟩⟩
    rw [hmessages, List.filter_append, hall]
    simp
  · rw [herror] at hdrain
    cases hdrain

/-- A report served by the write branch has no readable event. -/
theorem not_in_of_write {revent : EventMask} (hwrite : Channel.handleevent revent = .write) :
    revent &&& EPOLLIN = 0 := by
  by_contra hin
  have hread : revent &&& (EPOLLIN ||| EPOLLPRI) ≠ 0 := by
    intro hzero
    apply hin
    have hboth : revent &&& EPOLLIN = revent &&& (EPOLLIN ||| EPOLLPRI) &&& EPOLLIN := by
      rw [BitVec.and_assoc]
      congr 1
    rw [hboth, hzero]
    exact BitVec.zero_and
  rw [Channel.handleevent, if_pos (bne_iff_ne.mpr hread)] at hwrite
  split_ifs at hwrite

/-- A drain leaves its connection sound on a socket that is no longer readable. -/
theorem sound_of_drain {ep : Epoll} {fd : Fd} {connection drained : Connection} {ambient : Ambient}
    {events : List Event} {more : Bytes} (hsound : Sound ep fd connection)
    (hdrain : drain ambient 0 { connection with
      inputbuffer := connection.inputbuffer.append more } = .ok (drained, events)) :
    Sound (ep.lower fd EPOLLIN) fd drained ∧ drained.clientchannel = connection.clientchannel ∧
      drained.outputbuffer = connection.outputbuffer := by
  obtain ⟨hdrained, -, -⟩ := hsound.drain hdrain
  obtain ⟨dispatched, left, rfl, -, -⟩ := drain_ok hdrain
  exact ⟨{ hdrained with }, rfl, rfl⟩

/-- What handling an event does to the connection: it is deleted; or it has been read from and, when
there are no workers, its messages answered; or some of its output has been sent. -/
inductive Handled (workers : ℕ) (loop : EdgeTriggering.State) (fd : Fd) (connection : Connection)
    (circumstances : Circumstances) : EdgeTriggering.State → Prop
  | deleted {ep : Epoll} (hsame : SameElse fd loop.ep ep) :
      Handled workers loop fd connection circumstances (loop.put fd none ep)
  | read {drained after : Connection} {events : List Event} {ep : Epoll}
      (hread : Channel.handleevent connection.clientchannel.revent = .read)
      (hcall : connection.onmessage circumstances.ambient circumstances.results loop.ep =
        .ok (.returned drained loop.ep events))
      (hdrain : drain circumstances.ambient 0 { connection with
        inputbuffer := connection.inputbuffer.append (bytesOf circumstances.results) } =
          .ok (drained, events))
      (hgrows : Grows (loop.ep.lower fd EPOLLIN) fd drained
        (if workers = 0 then (messages events).flatMap ReplyPipeline.handledata else []) ep after) :
      Handled workers loop fd connection circumstances (loop.put fd (some after) ep)
  | write {after : Connection} {events : List Event} {ep : Epoll}
      (hwrite : Channel.handleevent connection.clientchannel.revent = .write)
      (hsend : connection.sendClient circumstances.writen loop.ep = .ok (after, ep, events)) :
      Handled workers loop fd connection circumstances
        (loop.put fd (some after)
          (if circumstances.writen < connection.outputbuffer.size then ep.lower fd EPOLLOUT
            else ep))

/-- After a close or an error of a sound connection the object is deleted. -/
theorem handled_leave {workers : ℕ} {loop : EdgeTriggering.State} {fd : Fd}
    {connection final : Connection}
    {circumstances : Circumstances} {ep : Epoll} {events : List Event}
    (hsame : SameElse fd loop.ep ep)
    (hevents : .closecallback ∈ events ∨ .errorcallback ∈ events) :
    Handled workers loop fd connection circumstances
      (EdgeTriggering.leave loop fd final ep events) := by
  rw [EdgeTriggering.leave, if_pos hevents]
  exact .deleted (hsame.trans (EdgeTriggering.sameElse_close ep fd))

theorem handled_of_handle {workers : ℕ} {loop next : EdgeTriggering.State} {fd : Fd}
    {connection : Connection} {circumstances : Circumstances} (hsound : Sound loop.ep fd connection)
    (hstep : EdgeTriggering.handle workers loop fd connection circumstances = some next) :
    Handled workers loop fd connection circumstances next := by
  rw [EdgeTriggering.handle] at hstep
  split at hstep
  · split at hstep
    · cases hstep
    · rename_i clientchannel ep hremove
      cases hstep
      refine handled_leave (hsound.remove hremove) (.inl ?_)
      simp [closeClient, hsound.closecallback]
  · rename_i hread
    split at hstep
    · rename_i final ep events hmessage
      rcases hsound.onmessage hmessage with ⟨hopen, -, hstays, -, -⟩ | ⟨-, hsame, hcloses, hset⟩
      · rcases onmessage_returned _ _ _ hmessage with ⟨-, rfl, hdrain⟩ | ⟨heof, -⟩
        · rw [if_neg hstays] at hstep
          dsimp only at hstep
          obtain ⟨hdrained, -, -⟩ := sound_of_drain hsound hdrain
          split_ifs at hstep with hworkers
          · obtain ⟨after, ep, rfl, hgrows⟩ :=
              handledataAll_grows _ (Function.update_self _ _ _) hdrained hstep
            have hput : (loop.put fd (some final) (loop.ep.lower fd EPOLLIN)).put fd (some after)
                ep = loop.put fd (some after) ep := by
              simp only [EdgeTriggering.State.put, Function.update_idem]
            rw [hput]
            exact .read hread hmessage hdrain (by rw [if_pos hworkers]; exact hgrows)
          · cases hstep
            exact .read hread hmessage hdrain (by rw [if_neg hworkers]; exact .refl hdrained)
        · rw [hopen] at heof
          cases heof
      · rw [if_pos hcloses] at hstep
        cases hstep
        exact handled_leave hsame (.inl hset)
    · cases hstep
  · rename_i hwrite
    rw [Option.ite_none_left_eq_some] at hstep
    obtain ⟨-, hstep⟩ := hstep
    split at hstep
    · cases hstep
    · rename_i after ep events hsend
      cases hstep
      exact .write hwrite hsend
  · split at hstep
    · cases hstep
    · rename_i clientchannel ep hremove
      cases hstep
      refine handled_leave (hsound.remove hremove) (.inr ?_)
      simp [errorClient, hsound.errorcallback]

/-- Lowering the writable event of a socket changes nothing about its readable one. -/
theorem in_level_lower_out (ep : Epoll) (fd : Fd) (short : Prop) [Decidable short] :
    ((if short then ep.lower fd EPOLLOUT else ep).level fd &&& EPOLLIN ≠ 0 ↔
        ep.level fd &&& EPOLLIN ≠ 0) ∧
      (if short then ep.lower fd EPOLLOUT else ep).ready = ep.ready ∧
      (if short then ep.lower fd EPOLLOUT else ep).interest = ep.interest ∧
      SameElse fd ep (if short then ep.lower fd EPOLLOUT else ep) := by
  split_ifs
  · refine ⟨?_, rfl, rfl, EdgeTriggering.sameElse_lower _ _ _⟩
    rw [Epoll.level_lower, Function.update_self, in_and_not_out]
  · exact ⟨Iff.rfl, rfl, rfl, .refl _ _⟩

/-! ### Input that is going to be read -/

/-- A live connection is sound and wants to be told of input; its socket is readable while some is
unread, and while it is readable it is on the ready list or its report is still to be handled. -/
structure Noticed (loop : EdgeTriggering.State) (unread : Bytes) (fd : Fd)
    (connection : Connection) : Prop where
  sound : Sound loop.ep fd connection
  wants : connection.clientchannel.event &&& EPOLLIN ≠ 0
  readable : unread ≠ [] → loop.ep.level fd &&& EPOLLIN ≠ 0
  noticed : loop.ep.level fd &&& EPOLLIN ≠ 0 → loop.ep.ready fd = true ∨
    .connection fd ∈ loop.batch ∧ connection.clientchannel.revent &&& EPOLLIN ≠ 0

section Connections

variable {loop next : EdgeTriggering.State} {unread : Bytes} {fd : Fd}
  {connection after : Connection}

/-- When the loop is back at `epoll_wait`, nothing that has arrived on a connection that is not on
the ready list is unread. -/
theorem Noticed.unread_eq_nil (hnoticed : Noticed loop unread fd connection)
    (hbatch : loop.batch = []) (hready : loop.ep.ready fd = false) : unread = [] := by
  by_contra hunread
  rcases hnoticed.noticed (hnoticed.readable hunread) with hlisted | ⟨hmem, -⟩
  · rw [hready] at hlisted
    cases hlisted
  · rw [hbatch] at hmem
    cases hmem

/-- A step does not touch the connection. -/
theorem Noticed.frame {touched : Fd} (hnoticed : Noticed loop unread fd connection)
    (hne : fd ≠ touched) (hsame : SameElse touched loop.ep next.ep)
    (hbatch : .connection fd ∈ loop.batch → .connection fd ∈ next.batch) :
    Noticed next unread fd connection := by
  refine ⟨{ hnoticed.sound with
    registered := (hsame.interest fd hne).trans hnoticed.sound.registered }, hnoticed.wants, ?_, ?_⟩
  · rw [hsame.level fd hne]
    exact hnoticed.readable
  · rw [hsame.level fd hne, hsame.ready fd hne]
    exact fun hlevel ↦ (hnoticed.noticed hlevel).imp_right (And.imp_left hbatch)

/-- Something went into its output buffer. -/
theorem Noticed.grows {added : Bytes} {ep : Epoll} (hnoticed : Noticed loop unread fd connection)
    (hgrows : Grows loop.ep fd connection added ep after) (hep : next.ep = ep)
    (hbatch : .connection fd ∈ loop.batch → .connection fd ∈ next.batch) :
    Noticed next unread fd after := by
  refine ⟨hep ▸ hgrows.sound, hgrows.wants hnoticed.wants, ?_, ?_⟩
  · rw [hep, hgrows.level]
    exact hnoticed.readable
  · rw [hep, hgrows.level, hgrows.revent]
    exact fun hlevel ↦ (hnoticed.noticed hlevel).imp hgrows.ready (And.imp_left hbatch)

/-- It was read from, and nothing is left to read. -/
theorem Noticed.read {drained : Connection} {ambient : Ambient} {events : List Event}
    {ep : Epoll} {more added : Bytes} (hnoticed : Noticed loop unread fd connection)
    (hdrain : drain ambient 0 { connection with
      inputbuffer := connection.inputbuffer.append more } = .ok (drained, events))
    (hgrows : Grows (loop.ep.lower fd EPOLLIN) fd drained added ep after) (hep : next.ep = ep) :
    Noticed next [] fd after := by
  obtain ⟨-, hchannel, -⟩ := sound_of_drain hnoticed.sound hdrain
  refine ⟨hep ▸ hgrows.sound, hgrows.wants (hchannel ▸ hnoticed.wants),
    fun hne ↦ absurd rfl hne, fun hlevel ↦ ?_⟩
  rw [hep, hgrows.level, Epoll.level_lower, Function.update_self] at hlevel
  exact absurd (in_and_not_in _) hlevel

/-- Some of its output was sent. Its report had no readable event, so input that is pending put it
on the ready list. -/
theorem Noticed.write {writen : ℤ} {events : List Event} {ep : Epoll} {short : Prop}
    [Decidable short] (hnoticed : Noticed loop unread fd connection)
    (hwrite : Channel.handleevent connection.clientchannel.revent = .write)
    (hsend : connection.sendClient writen loop.ep = .ok (after, ep, events))
    (hep : next.ep = if short then ep.lower fd EPOLLOUT else ep) :
    Noticed next unread fd after := by
  obtain ⟨hsound, -, hlevel, hready, -, hwants⟩ := hnoticed.sound.sendClient hsend
  obtain ⟨hin, hreadyLower, hinterest, -⟩ := in_level_lower_out ep fd short
  rw [hlevel] at hin
  refine ⟨?_, hwants hnoticed.wants, ?_, ?_⟩
  · refine { hsound with registered := ?_ }
    rw [hep, hinterest]
    exact hsound.registered
  · rw [hep, hin]
    exact hnoticed.readable
  · rw [hep, hin, hreadyLower]
    intro hlevelIn
    rcases hnoticed.noticed hlevelIn with hlisted | ⟨-, hrevent⟩
    · exact .inl (hready hlisted)
    · exact absurd (not_in_of_write hwrite) hrevent

/-- Its socket becomes ready, for input when bytes have arrived. -/
theorem Noticed.raise {events : EventMask} {more : Bytes}
    (hnoticed : Noticed loop unread fd connection)
    (hmore : more ≠ [] → unread ≠ [] ∨ events &&& EPOLLIN ≠ 0)
    (hnext : next = { loop with ep := loop.ep.raise fd events }) :
    Noticed next more fd connection := by
  have hlevel : next.ep.level fd = loop.ep.level fd ||| events := by
    rw [hnext]
    exact Function.update_self _ _ _
  refine ⟨?_, hnoticed.wants, ?_, ?_⟩
  · rw [hnext]
    exact { hnoticed.sound with registered := hnoticed.sound.registered }
  · rw [hlevel, in_or]
    exact fun hne ↦ (hmore hne).imp_left hnoticed.readable
  · rw [hlevel, in_or, hnext]
    simp only [Epoll.raise, Function.update_self, hnoticed.sound.registered, Bool.or_eq_true,
      bne_iff_ne]
    rintro (hold | hnew)
    · exact (hnoticed.noticed hold).imp_left .inl
    · exact .inl (.inr (ne_zero_of_in (in_report hnew hnoticed.wants)))

/-- A connection that is accepted is noticed. What arrived before is on the ready list. -/
theorem noticed_published {this : ℕ} {now : ℤ} {level : EventMask}
    (hearly : unread ≠ [] → level &&& EPOLLIN ≠ 0)
    (hep : next.ep = Epoll.register { loop.ep with
      level := Function.update loop.ep.level fd level } fd ⟨EPOLLET ||| EPOLLIN, this⟩) :
    Noticed next unread fd (published this fd now) := by
  have hlevel : next.ep.level fd = level := by
    rw [hep]
    exact Function.update_self _ _ _
  have hwants : (EPOLLET ||| EPOLLIN) &&& EPOLLIN ≠ 0 := by decide
  refine ⟨⟨rfl, ?_, rfl, rfl, rfl, rfl, rfl, fun h ↦ absurd rfl h⟩, hwants, ?_, fun hin ↦ .inl ?_⟩
  · rw [hep]
    exact Function.update_self _ _ _
  · rw [hlevel]
    exact hearly
  · rw [hlevel] at hin
    simp only [hep, Epoll.register, Function.update_self, Bool.or_eq_true, bne_iff_ne]
    exact .inr (ne_zero_of_in (in_report hin hwants))

/-- It is taken off the ready list, and its report has the readable event or is still to be
handled. -/
theorem Noticed.take (hnoticed : Noticed loop unread fd connection)
    (hreport : loop.ep.report fd ≠ 0 → .connection fd ∈ loop.batch) :
    let reported := { connection with
      clientchannel := connection.clientchannel.setrevents (loop.ep.report fd) }
    Noticed (loop.put fd (some reported) (loop.ep.take fd)) unread fd reported := by
  obtain ⟨hsound, hwants, hreadable, -⟩ := hnoticed
  refine ⟨{ hsound with
    registered := by rw [EdgeTriggering.State.put, Epoll.interest_take]; exact hsound.registered },
    hwants, ?_, ?_⟩
  · rw [EdgeTriggering.State.put, Epoll.level_take]
    exact hreadable
  · rw [EdgeTriggering.State.put, Epoll.level_take]
    intro hlevel
    have hin : loop.ep.report fd &&& EPOLLIN ≠ 0 := by
      rw [Epoll.report, hsound.registered]
      exact in_report hlevel hwants
    exact .inr ⟨hreport (ne_zero_of_in hin), hin⟩

/-- More is in the batch. -/
theorem Noticed.enlarge {batch : List Pointer} (hnoticed : Noticed loop unread fd connection)
    (hbatch : .connection fd ∈ loop.batch → .connection fd ∈ batch) :
    Noticed { loop with batch } unread fd connection :=
  ⟨hnoticed.sound, hnoticed.wants, hnoticed.readable,
    fun hlevel ↦ (hnoticed.noticed hlevel).imp_right (And.imp_left hbatch)⟩

end Connections

/-! ### The invariant -/

/-- How far the requests received on a connection have come: some have been consumed and dispatched,
and no complete one is left unless a `" "` came last. -/
structure Dispatched (received : Bytes) (dispatched : List Bytes) (left : Bytes) : Prop where
  stream : ∃ consumed, frameParser.Advances received consumed left ∧
    dispatched = consumed.filter (fun request ↦ request ≠ noMessage) ∧
      (frameParser.next left = none ∨ ∃ front, consumed = front ++ [noMessage])

/-- What holds of a live connection. -/
structure Served (state : State) (fd : Fd) (connection : Connection) : Prop
    extends Noticed state.loop (state.unread fd) fd connection where
  dispatched : Dispatched (state.received fd) (state.dispatched fd) connection.inputbuffer.buf

/-- Every live connection is served. -/
def Inv (state : State) : Prop :=
  ∀ fd connection, state.loop.connections fd = some connection → Served state fd connection

/-- Reading and dispatching what was read. -/
theorem Dispatched.read {received more : Bytes} {dispatched : List Bytes}
    {connection drained : Connection} {events : List Event} {ambient : Ambient}
    (hdispatched : Dispatched received dispatched connection.inputbuffer.buf)
    (hset : connection.messagecallback = true)
    (hdrain : drain ambient 0 { connection with
      inputbuffer := connection.inputbuffer.append more } = .ok (drained, events)) :
    Dispatched (received ++ more) (dispatched ++ messages events) drained.inputbuffer.buf := by
  obtain ⟨earlier, hadvance, hearlier, -⟩ := hdispatched.stream
  have hsetRead : { connection with
    inputbuffer := connection.inputbuffer.append more }.messagecallback = true := hset
  obtain ⟨consumed, hnew, hmessages, hstopped⟩ := drain_consumed hsetRead hdrain
  refine ⟨earlier ++ consumed, (hadvance.append more).trans hnew, ?_, ?_⟩
  · rw [hearlier, hmessages, List.filter_append]
  · refine hstopped.imp_right ?_
    rintro ⟨front, rfl⟩
    exact ⟨earlier ++ front, (List.append_assoc _ _ _).symm⟩

section Steps

variable {workers : ℕ} {state next : State}

/-- What holds when a connection is not the one whose channel is taken off the batch. -/
theorem mem_of_pop {batch rest : List Pointer} {pointer : Pointer} {fd : Fd}
    (hbatch : batch = pointer :: rest) (hne : .connection fd ≠ pointer)
    (hmem : .connection fd ∈ batch) : .connection fd ∈ rest := by
  rw [hbatch] at hmem
  exact (List.mem_cons.mp hmem).resolve_left hne

/-- An undisturbed step is a step of the sub-loop, or one of the main thread that is hardly seen. -/
theorem moves_of_step {label : Label} (hguard : Undisturbed state label)
    (hstep : step workers state label = some next) :
    ∃ (server : MainThread.State) (after : State),
      MainThread.Moves workers state.loop label.ofServer server.loop ∧
        streams state label = some after ∧ next = { after with toState := server } := by
  rw [step] at hstep
  split at hstep
  · rename_i server after hserver hstreams
    cases hstep
    exact ⟨server, after, MainThread.moves_of_step hguard hserver, hstreams, rfl⟩
  · cases hstep

/-- A step that touches one connection keeps the invariant, when it leaves this one served. -/
theorem Inv.put (hinv : Inv state) {fd : Fd} {connection : Option Connection}
    (hconnections : next.loop.connections = Function.update state.loop.connections fd connection)
    (hsame : SameElse fd state.loop.ep next.loop.ep)
    (hbatch : ∀ other, other ≠ fd → .connection other ∈ state.loop.batch →
      .connection other ∈ next.loop.batch)
    (hstreams : ∀ other, other ≠ fd → next.unread other = state.unread other ∧
      next.received other = state.received other ∧ next.dispatched other = state.dispatched other)
    (hput : ∀ found, connection = some found → Served next fd found) : Inv next := by
  intro other found hfound
  by_cases hother : other = fd
  · subst hother
    rw [hconnections, Function.update_self] at hfound
    exact hput found hfound
  · rw [hconnections, Function.update_of_ne hother] at hfound
    obtain ⟨hunread, hreceived, hdispatched⟩ := hstreams other hother
    have hserved := hinv other found hfound
    refine ⟨?_, ?_⟩
    · rw [hunread]
      exact hserved.toNoticed.frame hother hsame (hbatch other hother)
    · rw [hreceived, hdispatched]
      exact hserved.dispatched

/-- Handling an event keeps every connection served. -/
theorem Inv.handleevent {circumstances : Circumstances} (hinv : Inv state)
    (hguard : state.shared = none)
    (hstep : step workers state (.handleevent circumstances) = some next) : Inv next := by
  obtain ⟨⟨loop, main⟩, after, hmoves, hstreams, rfl⟩ :=
    @moves_of_step _ _ _ (.handleevent circumstances) hguard hstep
  cases hmoves with
  | step hloop =>
    rw [EdgeTriggering.step] at hloop
    split at hloop
    · rename_i fd rest hbatch
      split at hloop
      · cases hloop
      · rename_i connection hconnection
        have hserved := hinv fd connection hconnection
        have hcurrent : state.loop.current = some (fd, connection) := by
          simp [EdgeTriggering.State.current, hbatch, hconnection]
        simp only [streams, found, MainThread.facing_of_undisturbed hguard, hcurrent] at hstreams
        have hpopped : ∀ other, other ≠ fd → .connection other ∈ state.loop.batch →
            .connection other ∈ rest := by
          intro other hother hmem
          exact mem_of_pop hbatch (fun heq ↦ hother (Pointer.connection.inj heq)) hmem
        have hothers : ∀ other, other ≠ fd → after.unread other = state.unread other ∧
            after.received other = state.received other ∧
              after.dispatched other = state.dispatched other := by
          intro other hother
          split at hstreams
          · split_ifs at hstreams
            cases hstreams
            simp only [Function.update_of_ne hother, and_self]
          · cases hstreams
            exact ⟨rfl, rfl, rfl⟩
        have hhandled := @handled_of_handle workers { state.loop with batch := rest } _ _ _ _
          hserved.sound hloop
        cases hhandled with
        | deleted hsame => exact hinv.put rfl hsame hpopped hothers fun _ hnone ↦ by cases hnone
        | read hread hcall hdrain hgrows =>
          refine hinv.put rfl ((EdgeTriggering.sameElse_lower _ _ _).trans hgrows.same) hpopped
            hothers fun found hfound ↦ ?_
          cases hfound
          simp only [hread, hcall] at hstreams
          split_ifs at hstreams with hall
          cases hstreams
          rw [hall] at hdrain
          refine ⟨?_, ?_⟩
          · simp only [Function.update_self]
            exact hserved.toNoticed.read hdrain hgrows rfl
          · simp only [Function.update_self, hgrows.inputbuffer]
            exact hserved.dispatched.read hserved.sound.messagecallback hdrain
        | @write final events ep hwrite hsend =>
          obtain ⟨-, hsame, -, -, hinput, -⟩ := hserved.sound.sendClient hsend
          have hlower := (in_level_lower_out ep fd
            (circumstances.writen < connection.outputbuffer.size)).2.2.2
          refine hinv.put rfl (hsame.trans hlower) hpopped hothers fun found hfound ↦ ?_
          cases hfound
          simp only [hwrite] at hstreams
          cases hstreams
          refine ⟨hserved.toNoticed.write hwrite hsend rfl, ?_⟩
          rw [hinput]
          exact hserved.dispatched
    · cases hloop

/-- Running a task keeps every connection served. -/
theorem Inv.sendInloop {loop : EdgeTriggering.State} {task : Fd × Bytes} (hinv : Inv state)
    (hsend : EdgeTriggering.sendInloop state.loop task = some loop) :
    Inv { state with loop } ∧ loop.batch = state.loop.batch := by
  obtain ⟨fd, message⟩ := task
  cases hconnection : state.loop.connections fd with
  | none =>
    rw [EdgeTriggering.sendInloop, hconnection] at hsend
    cases hsend
  | some connection =>
    have hserved := hinv fd connection hconnection
    obtain ⟨after, ep, rfl, hgrows⟩ := sendInloop_grows hconnection hserved.sound hsend
    refine ⟨hinv.put rfl hgrows.same (fun _ _ hmem ↦ hmem) (fun _ _ ↦ ⟨rfl, rfl, rfl⟩) ?_, rfl⟩
    intro found hfound
    cases hfound
    refine ⟨hserved.toNoticed.grows hgrows rfl id, ?_⟩
    rw [hgrows.inputbuffer]
    exact hserved.dispatched

/-- Running tasks keeps every connection served. -/
theorem Inv.sendAll {loop : EdgeTriggering.State} {tasks : List (Fd × Bytes)} (hinv : Inv state)
    (hsend : tasks.foldlM EdgeTriggering.sendInloop state.loop = some loop) :
    Inv { state with loop } := by
  induction tasks generalizing state with
  | nil =>
    cases hsend
    exact hinv
  | cons task rest ih =>
    rw [List.foldlM_cons, Option.bind_eq_bind, Option.bind_eq_some_iff] at hsend
    obtain ⟨middle, hfirst, hrest⟩ := hsend
    exact @ih { state with loop := middle } (hinv.sendInloop hfirst).1 hrest

/-- Bytes that arrive, or other events, put the connection on the ready list. -/
theorem Inv.raise {fd : Fd} {events : EventMask} (hinv : Inv state)
    (hloop : next.loop = { state.loop with ep := state.loop.ep.raise fd events })
    (hunread : next.unread fd ≠ [] → state.unread fd ≠ [] ∨ events &&& EPOLLIN ≠ 0)
    (hstreams : ∀ other, other ≠ fd → next.unread other = state.unread other)
    (hreceived : next.received = state.received)
    (hdispatched : next.dispatched = state.dispatched) : Inv next := by
  refine @Inv.put _ next hinv fd (state.loop.connections fd) ?_ ?_ (fun _ _ hmem ↦ ?_)
    (fun other hother ↦ ⟨hstreams other hother, by rw [hreceived], by rw [hdispatched]⟩) ?_
  · rw [hloop, Function.update_eq_self]
  · rw [hloop]
    exact EdgeTriggering.sameElse_raise _ _ _
  · rw [hloop]
    exact hmem
  · intro connection hconnection
    have hserved := hinv fd connection hconnection
    exact ⟨hserved.toNoticed.raise hunread hloop, hreceived ▸ hdispatched ▸ hserved.dispatched⟩

/-- A connection that is accepted is served. -/
theorem Inv.accept {fd : Fd} {this : ℕ} {now : ℤ} {level : EventMask} {early : Bytes}
    (hinv : Inv state) (hstep : step workers state (.accept fd this now level early) = some next) :
    Inv next := by
  obtain ⟨⟨loop, main⟩, after, hmoves, hstreams, rfl⟩ :=
    @moves_of_step _ _ _ (.accept fd this now level early) trivial hstep
  cases hmoves with
  | step hloop =>
    rw [EdgeTriggering.step, Option.ite_none_right_eq_some] at hloop
    rw [streams, Option.ite_none_right_eq_some] at hstreams
    obtain ⟨-, hloop⟩ := hloop
    obtain ⟨hearly, hstreams⟩ := hstreams
    cases hloop
    cases hstreams
    refine hinv.put rfl ⟨fun _ hne ↦ Function.update_of_ne hne _ _,
      fun _ hne ↦ Function.update_of_ne hne _ _, fun _ hne ↦ Function.update_of_ne hne _ _⟩
      (fun _ _ hmem ↦ hmem) (fun other hother ↦ ?_) fun found hfound ↦ ?_
    · simp only [Function.update_of_ne hother, and_self]
    · cases hfound
      refine ⟨?_, ?_⟩
      · simp only [Function.update_self]
        exact noticed_published hearly rfl
      · simp only [Function.update_self]
        exact ⟨[], .refl _, rfl, .inl rfl⟩

/-- A larger batch keeps the invariant. -/
theorem Inv.enlarge (hinv : Inv state) {batch : List Pointer}
    (hbatch : ∀ fd, .connection fd ∈ state.loop.batch → .connection fd ∈ batch) :
    Inv { state with loop := { state.loop with batch } } := fun fd connection hconnection ↦
  ⟨(hinv fd connection hconnection).toNoticed.enlarge (hbatch fd),
    (hinv fd connection hconnection).dispatched⟩

/-- Taking a descriptor off the ready list keeps the invariant. -/
theorem Inv.take {fd : Fd} {connection : Connection} (hinv : Inv state)
    (hconnection : state.loop.connections fd = some connection)
    (hreport : state.loop.ep.report fd ≠ 0 → .connection fd ∈ state.loop.batch) :
    let reported := { connection with
      clientchannel := connection.clientchannel.setrevents (state.loop.ep.report fd) }
    Inv { state with loop := state.loop.put fd (some reported) (state.loop.ep.take fd) } := by
  have hserved := hinv fd connection hconnection
  refine hinv.put rfl (EdgeTriggering.sameElse_take _ _) (fun _ _ hmem ↦ hmem)
    (fun _ _ ↦ ⟨rfl, rfl, rfl⟩) fun found hfound ↦ ?_
  cases hfound
  exact ⟨hserved.toNoticed.take hreport, hserved.dispatched⟩

/-- Reporting any descriptors keeps the invariant. -/
theorem Inv.report {reported : List Pointer} :
    ∀ {state : State}, Inv state →
      Inv { state with loop := EdgeTriggering.report state.loop reported } := by
  induction reported with
  | nil => exact fun hinv ↦ hinv
  | cons pointer rest ih =>
    intro state hinv
    cases pointer with
    | wakeup => exact ih (hinv.enlarge fun _ hmem ↦ List.mem_append_left _ hmem)
    | connection fd =>
      rw [EdgeTriggering.report]
      split
      · exact ih hinv
      · rename_i connection hconnection
        dsimp only
        split_ifs with hzero
        · exact ih (hinv.take hconnection fun hne ↦ absurd hzero hne)
        · have hlarger : Inv { state with loop := { state.loop with
              batch := state.loop.batch ++ [.connection fd] } } :=
            hinv.enlarge fun _ hmem ↦ List.mem_append_left _ hmem
          exact ih (hlarger.take hconnection fun _ ↦ List.mem_append_right _ List.mem_cons_self)

/-- What the main thread is doing does not matter. -/
theorem Inv.aside (hinv : Inv state) (main : MainThread.Main) : Inv { state with main } :=
  fun fd connection hconnection ↦
    ⟨(hinv fd connection hconnection).toNoticed, (hinv fd connection hconnection).dispatched⟩

/-- The main thread keeps every connection served, or deletes it. -/
theorem Inv.main {server : MainThread.State} {action : MainThread.Action} (hinv : Inv state)
    (hmoves : MainThread.Moves workers state.loop (.main action) server.loop) :
    Inv { state with toState := server } := by
  obtain ⟨loop, main⟩ := server
  cases hmoves with
  | evict fd hbatch =>
    exact hinv.put rfl (EdgeTriggering.sameElse_close _ _) (fun _ _ hmem ↦ hmem)
      (fun _ _ ↦ ⟨rfl, rfl, rfl⟩) fun _ hnone ↦ by cases hnone
  | stay => exact hinv.aside main

/-- Every undisturbed step keeps the connections served. -/
theorem Inv.step {label : Label} (hinv : Inv state) (hguard : Undisturbed state label)
    (hstep : PendingInput.step workers state label = some next) : Inv next := by
  cases label with
  | accept => exact hinv.accept hstep
  | handleevent => exact hinv.handleevent hguard hstep
  | arrive fd bytes =>
    cases hstep
    refine hinv.raise rfl (fun _ ↦ .inr (by decide)) (fun other hother ↦ ?_) rfl rfl
    exact Function.update_of_ne hother _ _
  | raise fd events =>
    cases hstep
    exact hinv.raise rfl .inl (fun _ _ ↦ rfl) rfl rfl
  | epollWait reported =>
    obtain ⟨⟨loop, main⟩, after, hmoves, hstreams, rfl⟩ := moves_of_step hguard hstep
    cases hstreams
    cases hmoves with
    | step hloop =>
      obtain ⟨-, hnext⟩ := Option.ite_none_right_eq_some.mp hloop
      cases hnext
      exact hinv.report.aside main
  | handleWakeup tasks =>
    obtain ⟨⟨loop, main⟩, after, hmoves, hstreams, rfl⟩ := moves_of_step hguard hstep
    cases hstreams
    cases hmoves with
    | step hloop =>
      rw [EdgeTriggering.step] at hloop
      split at hloop
      · rename_i rest hbatch
        have hpopped := hinv.enlarge fun fd hmem ↦ mem_of_pop hbatch (by simp) hmem
        exact (hpopped.sendAll hloop).aside main
      · cases hloop
  | main action =>
    obtain ⟨server, after, hmoves, hstreams, rfl⟩ := moves_of_step hguard hstep
    cases hstreams
    exact hinv.main hmoves

end Steps

/-- In every state of an undisturbed run, all live connections are served. -/
theorem inv_of_undisturbed {workers : ℕ} {state : State}
    (hreach : (system workers).ReachesUnder Undisturbed state) : Inv state := by
  refine hreach.invariant Inv (fun state hinitial fd connection hconnection ↦ ?_)
    fun _ _ _ hinv hguard hstep ↦ hinv.step hguard hstep
  rw [hinitial.loop.connections] at hconnection
  cases hconnection

/-! ### What is dispatched -/

section Results

variable {workers : ℕ} {state : State} {fd : Fd} {connection : Connection}

/-- The requests of a stream that are dispatched. -/
def requests (input : Bytes) : List Bytes :=
  (frameParser.items input).filter fun request ↦ request ≠ noMessage

/-- What was dispatched are the first requests received. -/
theorem Dispatched.requests_eq {received left : Bytes} {dispatched : List Bytes}
    (hdispatched : Dispatched received dispatched left) :
    requests received = dispatched ++ requests left := by
  obtain ⟨consumed, hadvance, hmessages, -⟩ := hdispatched.stream
  rw [requests, hadvance.items_eq, List.filter_append, hmessages, requests]

/-- The drain stops before the end of the complete requests only at a `" "`. -/
theorem Dispatched.all_dispatched {received left : Bytes} {dispatched : List Bytes}
    (hdispatched : Dispatched received dispatched left)
    (hnot : noMessage ∉ frameParser.items received) :
    dispatched = frameParser.items received := by
  obtain ⟨consumed, hadvance, hmessages, hstopped⟩ := hdispatched.stream
  have hnext : frameParser.next left = none := by
    refine hstopped.resolve_right ?_
    rintro ⟨front, rfl⟩
    apply hnot
    rw [hadvance.items_eq]
    simp
  rw [hadvance.items_eq, StreamParser.items_of_none hnext, List.append_nil] at hnot ⊢
  rw [hmessages, List.filter_eq_self]
  exact fun request hrequest ↦ decide_eq_true fun heq ↦ hnot (heq ▸ hrequest)

/-- A sub-loop without connections. -/
def start : State := ⟨MainThread.start, fun _ ↦ [], fun _ ↦ [], fun _ ↦ []⟩

end Results

end Reactor.PendingInput
