import Reactor.SingleReactor.Answering
import Reactor.SingleReactor.Lifecycle

/-!
# What a peer of the single-reactor server gets back

The server of `Lifecycle` with its peers. As in `EchoService` the state adds, for each descriptor,
the bytes that have arrived and have not been read, those that were read, and those the kernel has
accepted; and the readiness of the sockets decides what `epoll_wait` reports. The listening socket
is level-triggered and may be reported at any time; `accept4` may fail.

`HandleMessage` gives each reply to `::send` itself, which may accept a part of it or nothing, and
the rest is lost. So in every run the bytes sent on a connection are made of beginnings of the
replies to its requests, one for each in order (`replies_cut`); with `::send` accepting whole
replies, they are the echo of the requests (`replies_whole_echo`). In both cases no input is left
behind: when the loop is back at `epoll_wait`, all that has arrived on a connection that is not on
the ready list has been read.

The server registers neither `EPOLLRDHUP` nor `EPOLLOUT`, so that two of the four branches of
`Channel::handleevent` are never taken for a connection: it lives until its peer closes or nothing
but an error is reported for it (`destroyed_iff`).
-/

set_option autoImplicit false
set_option relaxedAutoImplicit false

namespace Reactor.SingleReactor.DirectReplies

open Library Buffer Lifecycle Answering
open Reactor.Connection (bytesOf)
open Reactor.EchoService (answers echo)
open Reactor.EdgeTriggering (SameElse)

/-- What a call of `handleevent` meets: the kernel, the results of `::send` in the calls of
`HandleMessage`, and the readiness of the socket of a new connection, with the bytes that have
arrived on it. -/
structure Circumstances where
  kernel : Kernel
  writens : List ℤ
  level : EventMask
  early : Bytes

structure State where
  server : Server
  unread : Fd → Bytes
  received : Fd → Bytes
  sent : Fd → Bytes

inductive Label
  | arrive (fd : Fd) (bytes : Bytes)
  | raise (fd : Fd) (events : EventMask)
  | epollWait (reported : List Fd)
  | handleevent (circumstances : Circumstances)

section Steps

variable (listenfd : Fd)

/-- The events `epoll_wait` reports. -/
def reports (ep : Epoll) (reported : List Fd) : List (Fd × EventMask) :=
  reported.filterMap fun fd ↦
    if fd = listenfd then some (fd, EPOLLIN)
    else if ep.report fd = 0 then none
    else some (fd, ep.report fd)

/-- The handler of the listening channel. -/
def accept (state : State) (circumstances : Circumstances) : Option State :=
  match circumstances.kernel.accepted with
  | none =>
    (Lifecycle.step state.server (.handleevent circumstances.kernel)).map fun server ↦
      { state with server }
  | some clientfd =>
    if circumstances.early ≠ [] → circumstances.level &&& EPOLLIN ≠ 0 then
      let ep := { state.server.ep with
        level := Function.update state.server.ep.level clientfd circumstances.level }
      (Lifecycle.step { state.server with ep } (.handleevent circumstances.kernel)).map
        fun server ↦
          { server
            unread := Function.update state.unread clientfd circumstances.early
            received := Function.update state.received clientfd []
            sent := Function.update state.sent clientfd [] }
    else none

/-- The handler of a connection. One that reads finds what is unread, and then its messages are
answered. -/
def serve (state : State) (connection : Connection) (circumstances : Circumstances) :
    Option State :=
  let fd := connection.fd
  (Lifecycle.step state.server (.handleevent circumstances.kernel)).bind fun server ↦
    match Channel.handleevent connection.clientchannel.revent with
    | .read =>
      match connection.onmessage circumstances.kernel.stale circumstances.kernel.results with
      | .ok (.drained _ messages) =>
        if bytesOf circumstances.kernel.results = state.unread fd then
          (accepted messages circumstances.writens).map fun pieces ↦
            { server := { server with ep := server.ep.lower fd EPOLLIN }
              unread := Function.update state.unread fd []
              received := Function.update state.received fd
                (state.received fd ++ state.unread fd)
              sent := Function.update state.sent fd (state.sent fd ++ pieces.flatten) }
        else none
      | _ => some { state with server }
    | .write =>
      some { state with
        server
        sent := Function.update state.sent fd
          (state.sent fd ++ connection.outputbuffer.buf.take circumstances.kernel.writen.toNat) }
    | _ => some { state with server }

def step (state : State) : Label → Option State
  | .arrive fd bytes =>
    some { state with
      server := { state.server with ep := state.server.ep.raise fd EPOLLIN }
      unread := Function.update state.unread fd (state.unread fd ++ bytes) }
  | .raise fd events =>
    some { state with server := { state.server with ep := state.server.ep.raise fd events } }
  | .epollWait reported =>
    if ∀ fd ∈ reported, fd = listenfd ∨ state.server.ep.ready fd = true then
      let taken := reported.foldl Epoll.take state.server.ep
      (Lifecycle.step { state.server with ep := taken }
        (.epollWait (reports listenfd state.server.ep reported))).map fun server ↦
          { state with server }
    else none
  | .handleevent circumstances =>
    match state.server.batch with
    | [] => none
    | address :: _ =>
      if address = 0 then accept state circumstances
      else
        match state.server.objects address with
        | none => none
        | some connection => serve state connection circumstances

/-- The server and its peers, for the descriptor of the listening socket. -/
def system : TransitionSystem State Label where
  initial := fun state ↦ Lifecycle.Initial listenfd state.server
  step := step listenfd

end Steps

/-- The messages the next handler dispatches. -/
def dispatched (state : State) (circumstances : Circumstances) : List Bytes :=
  match state.server.batch with
  | [] => []
  | address :: _ =>
    match state.server.objects address with
    | none => []
    | some connection =>
      match connection.onmessage circumstances.kernel.stale circumstances.kernel.results with
      | .ok (.drained _ messages) => messages
      | _ => []

/-- What `::send` accepts of the replies is allowed. -/
def Allows (allowed : Bytes → Bytes → Prop) (state : State) : Label → Prop
  | .handleevent circumstances =>
    ∀ pieces, accepted (dispatched state circumstances) circumstances.writens = some pieces →
      List.Forall₂ allowed (dispatched state circumstances) pieces
  | _ => True

/-- `::send` accepts whole replies. -/
def Whole (state : State) : Label → Prop
  | .handleevent circumstances =>
    circumstances.writens =
      (dispatched state circumstances).map fun message ↦ ((handleMessage message).length : ℤ)
  | _ => True

instance (state : State) : ∀ label, Decidable (Whole state label)
  | .handleevent circumstances => inferInstanceAs (Decidable (circumstances.writens =
      (dispatched state circumstances).map fun message ↦ ((handleMessage message).length : ℤ)))
  | .arrive _ _ | .raise _ _ | .epollWait _ => .isTrue trivial

/-! ### The invariant -/

/-- What holds of a live connection: it wants only to be told of input, edge-triggered, and has been
told of nothing else but errors; its output buffer is empty, and its requests are answered; and
input that is unread is going to be read. -/
structure Served (allowed : Bytes → Bytes → Prop) (state : State) (address : ℕ)
    (connection : Connection) : Prop where
  event : connection.clientchannel.event = EPOLLET ||| EPOLLIN
  told : connection.clientchannel.revent &&& (EPOLLRDHUP ||| EPOLLPRI ||| EPOLLOUT) = 0
  output : connection.outputbuffer.buf = []
  readable : state.unread connection.fd ≠ [] →
    state.server.ep.level connection.fd &&& EPOLLIN ≠ 0
  noticed : state.server.ep.level connection.fd &&& EPOLLIN ≠ 0 →
    state.server.ep.ready connection.fd = true ∨
      address ∈ state.server.batch ∧ connection.clientchannel.revent &&& EPOLLIN ≠ 0
  answered : Answered allowed (state.received connection.fd) (state.sent connection.fd)
    connection.inputbuffer.buf

/-- The life cycle is right, and every live connection is served. -/
structure Inv (allowed : Bytes → Bytes → Prop) (listenfd : Fd) (state : State) : Prop where
  life : Lifecycle.Inv listenfd state.server
  served : ∀ address connection, state.server.objects address = some connection →
    Served allowed state address connection

section Steps

variable {allowed : Bytes → Bytes → Prop} {listenfd : Fd} {state next : State} {address : ℕ}
  {connection : Connection}

/-- The readiness of the sockets is nothing to the life cycle. -/
theorem life_of_interest {server : Server} {ep : Epoll} (hinv : Lifecycle.Inv listenfd server)
    (hep : ep.interest = server.ep.interest) : Lifecycle.Inv listenfd { server with ep } where
  linked hobject :=
    { hinv.linked hobject with
      registered := (congrFun hep _).trans (hinv.linked hobject).registered }
  stored := hinv.stored
  owned hregistered := hinv.owned ((congrFun hep _).symm.trans hregistered)
  listening := hinv.listening
  once := hinv.once
  unbuilt := hinv.unbuilt
  nodup := hinv.nodup
  live := hinv.live

/-- A connection that a step does not touch stays served. -/
theorem Served.frame {touched : Fd} (hserved : Served allowed state address connection)
    (hne : connection.fd ≠ touched)
    (hsame : SameElse touched state.server.ep next.server.ep)
    (hbatch : address ∈ state.server.batch → address ∈ next.server.batch)
    (hunread : next.unread connection.fd = state.unread connection.fd)
    (hreceived : next.received connection.fd = state.received connection.fd)
    (hsent : next.sent connection.fd = state.sent connection.fd) :
    Served allowed next address connection := by
  refine { hserved with
    readable := ?_
    noticed := ?_
    answered := hreceived ▸ hsent ▸ hserved.answered }
  · rw [hunread, hsame.level _ hne]
    exact hserved.readable
  · rw [hsame.level _ hne, hsame.ready _ hne]
    exact fun hlevel ↦ (hserved.noticed hlevel).imp_right (And.imp_left hbatch)

/-- Of a connection only input and errors are reported. -/
theorem report_of_served (hinv : Inv allowed listenfd state)
    (hobject : state.server.objects address = some connection) :
    state.server.ep.report connection.fd =
      state.server.ep.level connection.fd &&& Epoll.reportable (EPOLLET ||| EPOLLIN) := by
  rw [Epoll.report, (hinv.life.linked hobject).registered,
    (hinv.served address connection hobject).event]

/-- The handler of a connection calls the read callback or the error callback. -/
theorem Served.branch (hserved : Served allowed state address connection) :
    Channel.handleevent connection.clientchannel.revent =
      if connection.clientchannel.revent &&& EPOLLIN = 0 then .error else .read := by
  have hnone : ∀ {event : EventMask}, (EPOLLRDHUP ||| EPOLLPRI ||| EPOLLOUT) &&& event = event →
      connection.clientchannel.revent &&& event = 0 := by
    intro event hevent
    rw [← hevent, ← BitVec.and_assoc, hserved.told]
    exact BitVec.zero_and
  have hrdhup := hnone (show _ &&& EPOLLRDHUP = _ by decide)
  have hpri := hnone (show _ &&& EPOLLPRI = _ by decide)
  have hout := hnone (show _ &&& EPOLLOUT = _ by decide)
  rw [Channel.handleevent, hrdhup, BitVec.and_or_distrib_left, hpri, hout]
  by_cases hin : connection.clientchannel.revent &&& EPOLLIN = 0
  · rw [hin, if_pos rfl]
    rfl
  · rw [if_neg hin]
    simpa using hin

/-- A socket that becomes ready, for input when bytes have arrived. -/
theorem Inv.raise {fd : Fd} {events : EventMask} (hinv : Inv allowed listenfd state)
    (hserver : next.server = { state.server with ep := state.server.ep.raise fd events })
    (hunread : next.unread fd ≠ [] → state.unread fd ≠ [] ∨ events &&& EPOLLIN ≠ 0)
    (hstreams : ∀ other, other ≠ fd → next.unread other = state.unread other)
    (hreceived : next.received = state.received) (hsent : next.sent = state.sent) :
    Inv allowed listenfd next := by
  refine ⟨hserver ▸ life_of_interest hinv.life rfl, fun address connection hobject ↦ ?_⟩
  have hbefore : state.server.objects address = some connection := by
    rw [hserver] at hobject
    exact hobject
  have hserved := hinv.served address connection hbefore
  by_cases hfd : connection.fd = fd
  · subst hfd
    have hlevel : next.server.ep.level connection.fd =
        state.server.ep.level connection.fd ||| events := by
      rw [hserver]
      exact Function.update_self _ _ _
    have hwants : (EPOLLET ||| EPOLLIN) &&& EPOLLIN ≠ 0 := by decide
    refine { hserved with
      readable := ?_
      noticed := ?_
      answered := hreceived ▸ hsent ▸ hserved.answered }
    · rw [hlevel, in_or]
      exact fun hne ↦ (hunread hne).imp_left hserved.readable
    · rw [hlevel, in_or, hserver]
      simp only [Epoll.raise, Function.update_self, (hinv.life.linked hbefore).registered,
        hserved.event, Bool.or_eq_true, bne_iff_ne]
      rintro (hold | hnew)
      · exact (hserved.noticed hold).imp_left .inl
      · exact .inl (.inr (ne_zero_of_in (in_report hnew hwants)))
  · refine hserved.frame hfd ?_ ?_ (hstreams _ hfd) (by rw [hreceived]) (by rw [hsent])
    · rw [hserver]
      exact EdgeTriggering.sameElse_raise _ _ _
    · rw [hserver]
      exact id

/-! ### A batch -/

/-- What reporting some events does: the channels of the descriptors reported are told and are in
the batch, and the others are as they were. -/
structure Reported (entries : List (Fd × EventMask)) (server final : Server) : Prop where
  ep : final.ep = server.ep
  fds : fdOf final.objects = fdOf server.objects
  batch : server.batch ⊆ final.batch
  objects : ∀ address connection, final.objects address = some connection →
    (server.objects address = some connection ∧ ∀ mask, (connection.fd, mask) ∉ entries) ∨
      ∃ old mask, server.objects address = some old ∧ (old.fd, mask) ∈ entries ∧
        connection = { old with clientchannel := old.clientchannel.setrevents mask } ∧
          address ∈ final.batch

/-- Reporting one descriptor. -/
theorem reported_one {server : Server} {entry : Fd × EventMask} {registration : Registration}
    (hinv : Lifecycle.Inv listenfd server)
    (hentry : server.ep.interest entry.1 = some registration)
    (hbatch : registration.channel ∉ server.batch) :
    Reported [entry] server (server.report entry) := by
  obtain ⟨hep, hlonger, -⟩ := hinv.report hentry hbatch
  have hreport : (server.report entry).objects =
      (server.setrevents registration.channel entry.2).objects := by
    rw [Server.report, hentry]
  refine ⟨hep, ?_, ?_, fun address connection hobject ↦ ?_⟩
  · rw [hreport, fdOf_setrevents]
  · rw [hlonger]
    exact List.subset_append_left _ _
  · rw [hreport, Server.setrevents] at hobject
    have hpositive : server.objects 0 = none := by
      refine Option.eq_none_iff_forall_ne_some.mpr fun found hfound ↦ ?_
      exact absurd (hinv.linked hfound).positive (Nat.lt_irrefl 0)
    have hother : ∀ found, server.objects address = some found →
        address ≠ registration.channel → ∀ mask, (found.fd, mask) ∉ [entry] := by
      rintro found hfound hne mask hmem
      obtain rfl := List.mem_singleton.mp hmem
      have hregistered := (hinv.linked hfound).registered
      rw [hentry] at hregistered
      exact hne (congrArg Registration.channel (Option.some.inj hregistered)).symm
    split_ifs at hobject with hserver
    · refine .inl ⟨hobject, hother connection hobject ?_⟩
      rintro rfl
      rw [hserver, hpositive] at hobject
      cases hobject
    · dsimp only at hobject
      by_cases haddress : address = registration.channel
      · rw [haddress, Function.update_self] at hobject
        obtain ⟨old, hold, rfl⟩ := Option.map_eq_some_iff.mp hobject
        have hfd : old.fd = entry.1 := by
          rcases hinv.owned hentry with ⟨-, hzero⟩ | howner
          · exact absurd hzero hserver
          · rw [fdOf, hold] at howner
            exact Option.some.inj howner
        refine .inr ⟨old, entry.2, haddress ▸ hold, ?_, rfl, ?_⟩
        · rw [hfd]
          exact List.mem_singleton.mpr rfl
        · rw [hlonger, haddress]
          exact List.mem_append_right _ List.mem_cons_self
      · rw [Function.update_of_ne haddress] at hobject
        exact .inl ⟨hobject, hother connection hobject haddress⟩

/-- Reporting first some descriptors and then others. -/
theorem Reported.trans {first second : List (Fd × EventMask)} {server middle final : Server}
    (hfirst : Reported first server middle) (hsecond : Reported second middle final) :
    Reported (first ++ second) server final := by
  refine ⟨hsecond.ep.trans hfirst.ep, hsecond.fds.trans hfirst.fds,
    fun _ hmem ↦ hsecond.batch (hfirst.batch hmem), ?_⟩
  intro address connection hobject
  rcases hsecond.objects address connection hobject with
    ⟨hmiddle, hnone⟩ | ⟨old, mask, hmiddle, hmem, rfl, hbatch⟩
  · rcases hfirst.objects address connection hmiddle with
      ⟨hbefore, hneither⟩ | ⟨old, mask, hbefore, hmem, rfl, hbatch⟩
    · refine .inl ⟨hbefore, fun mask hmem ↦ ?_⟩
      rcases List.mem_append.mp hmem with hleft | hright
      · exact hneither mask hleft
      · exact hnone mask hright
    · exact .inr ⟨old, mask, hbefore, List.mem_append_left _ hmem, rfl, hsecond.batch hbatch⟩
  · rcases hfirst.objects address old hmiddle with
      ⟨hbefore, -⟩ | ⟨older, earlier, hbefore, -, rfl, -⟩
    · exact .inr ⟨old, mask, hbefore, List.mem_append_right _ hmem, rfl, hbatch⟩
    · exact .inr ⟨older, mask, hbefore, List.mem_append_right _ hmem, rfl, hbatch⟩

/-- Reporting different registered descriptors. -/
theorem reported_all {entries : List (Fd × EventMask)} :
    ∀ {server : Server}, Lifecycle.Inv listenfd server → (entries.map Prod.fst).Nodup →
      (∀ entry ∈ entries, ∃ registration, server.ep.interest entry.1 = some registration ∧
        registration.channel ∉ server.batch) →
          Reported entries server (entries.foldl Server.report server) := by
  induction entries with
  | nil =>
    intro server hinv hnodup hregistered
    exact ⟨rfl, rfl, List.Subset.refl _, fun _ _ hobject ↦ .inl ⟨hobject, by simp⟩⟩
  | cons entry rest ih =>
    intro server hinv hnodup hregistered
    obtain ⟨registration, hentry, hbatch⟩ := hregistered entry List.mem_cons_self
    obtain ⟨hep, hlonger, hnext⟩ := hinv.report hentry hbatch
    rw [List.map_cons, List.nodup_cons] at hnodup
    refine (reported_one hinv hentry hbatch).trans (ih hnext hnodup.2 fun later hlater ↦ ?_)
    obtain ⟨other, hother, houtside⟩ := hregistered later (List.mem_cons_of_mem _ hlater)
    refine ⟨other, by rw [hep, hother], ?_⟩
    rw [hlonger, List.mem_append, List.mem_singleton]
    rintro (hbefore | hsame)
    · exact houtside hbefore
    · exact hnodup.1 (hinv.fd_of_channel hother hentry hsame ▸ List.mem_map_of_mem hlater)

/-- A client descriptor is reported with what is pending for it, if that is anything. -/
theorem mem_reports {ep : Epoll} {reported : List Fd} {fd : Fd} {mask : EventMask}
    (hne : fd ≠ listenfd) :
    (fd, mask) ∈ reports listenfd ep reported ↔
      fd ∈ reported ∧ ep.report fd ≠ 0 ∧ mask = ep.report fd := by
  rw [reports, List.mem_filterMap]
  constructor
  · rintro ⟨other, hother, heq⟩
    split_ifs at heq with hserver hzero
    · cases heq
      exact absurd hserver hne
    · cases heq
      exact ⟨hother, hzero, rfl⟩
  · rintro ⟨hmem, hzero, rfl⟩
    exact ⟨fd, hmem, by rw [if_neg hne, if_neg hzero]⟩

/-- Taking descriptors off the ready list. -/
theorem take_all (reported : List Fd) : ∀ ep : Epoll,
    (reported.foldl Epoll.take ep).interest = ep.interest ∧
      (reported.foldl Epoll.take ep).level = ep.level ∧
        ∀ fd, fd ∉ reported → (reported.foldl Epoll.take ep).ready fd = ep.ready fd := by
  induction reported with
  | nil => exact fun ep ↦ ⟨rfl, rfl, fun _ _ ↦ rfl⟩
  | cons first rest ih =>
    intro ep
    obtain ⟨hinterest, hlevel, hready⟩ := ih (ep.take first)
    refine ⟨hinterest.trans (Epoll.interest_take _ _), hlevel.trans (Epoll.level_take _ _), ?_⟩
    intro fd hfd
    rw [List.mem_cons, not_or] at hfd
    exact (hready fd hfd.2).trans ((EdgeTriggering.sameElse_take ep first).ready fd hfd.1)

/-- What a call of `epoll_wait` leaves. -/
theorem reported_of_step {reported : List Fd} (hinv : Inv allowed listenfd state)
    (hstep : step listenfd state (.epollWait reported) = some next) :
    ∃ server, next = { state with server } ∧ Lifecycle.Inv listenfd server ∧
      state.server.batch = [] ∧ Reported (reports listenfd state.server.ep reported)
        { state.server with ep := reported.foldl Epoll.take state.server.ep } server := by
  rw [step, Option.ite_none_right_eq_some] at hstep
  obtain ⟨server, hserver, rfl⟩ := Option.map_eq_some_iff.mp hstep.2
  have htaken := life_of_interest hinv.life (take_all reported state.server.ep).1
  have hlife := htaken.step hserver
  rw [Lifecycle.step, Option.ite_none_right_eq_some] at hserver
  obtain ⟨⟨hbatch, hnodup, hregistered⟩, hserver⟩ := hserver
  cases hserver
  refine ⟨_, rfl, hlife, hbatch, reported_all htaken hnodup fun entry hentry ↦ ?_⟩
  obtain ⟨registration, hfound⟩ := Option.isSome_iff_exists.mp (hregistered entry hentry)
  exact ⟨registration, hfound, by rw [hbatch]; exact List.not_mem_nil⟩

/-- A call of `epoll_wait` keeps the connections served: those reported are going to be handled, and
for the others nothing is pending. -/
theorem Inv.epollWait {reported : List Fd} (hinv : Inv allowed listenfd state)
    (hstep : step listenfd state (.epollWait reported) = some next) :
    Inv allowed listenfd next := by
  obtain ⟨server, rfl, hlife, hbatch, hreported⟩ := reported_of_step hinv hstep
  obtain ⟨-, hlevel, hready⟩ := take_all reported state.server.ep
  refine ⟨hlife, fun address connection hobject ↦ ?_⟩
  rcases hreported.objects address connection hobject with
    ⟨hbefore, hnone⟩ | ⟨old, mask, hbefore, hmem, rfl, hlisted⟩
  · have hserved := hinv.served address connection hbefore
    refine { hserved with readable := ?_, noticed := ?_ }
    · rw [hreported.ep, hlevel]
      exact hserved.readable
    · rw [hreported.ep, hlevel]
      intro hin
      have hold := (hserved.noticed hin).resolve_right fun hmem ↦ by
        rw [hbatch] at hmem
        cases hmem.1
      -- It is not among the descriptors reported, as it would have been told.
      have hwants : (EPOLLET ||| EPOLLIN) &&& EPOLLIN ≠ 0 := by decide
      have hunreported : connection.fd ∉ reported := by
        intro hmem
        have hpending : state.server.ep.report connection.fd ≠ 0 := by
          rw [report_of_served hinv hbefore]
          exact ne_zero_of_in (in_report hin hwants)
        exact hnone _ ((mem_reports (hinv.life.linked hbefore).client).mpr ⟨hmem, hpending, rfl⟩)
      rw [hready _ hunreported]
      exact .inl hold
  · have hserved := hinv.served address old hbefore
    obtain ⟨-, -, hmask⟩ := (mem_reports (hinv.life.linked hbefore).client).mp hmem
    rw [report_of_served hinv hbefore] at hmask
    subst hmask
    refine { hserved with told := ?_, readable := ?_, noticed := ?_ }
    · have hwants : Epoll.reportable (EPOLLET ||| EPOLLIN) &&&
          (EPOLLRDHUP ||| EPOLLPRI ||| EPOLLOUT) = 0 := by decide
      exact (BitVec.and_assoc _ _ _).trans ((congrArg _ hwants).trans BitVec.and_zero)
    · rw [hreported.ep, hlevel]
      exact hserved.readable
    · rw [hreported.ep, hlevel]
      exact fun hin ↦ .inr ⟨hlisted, in_report hin (by decide)⟩

/-! ### A new connection -/

/-- The handler of the listening channel is next. -/
theorem handleServer_of_step {server after : Server} {kernel : Kernel} {rest : List ℕ}
    (hstep : Lifecycle.step server (.handleevent kernel) = some after)
    (hbatch : server.batch = 0 :: rest) :
    Server.handleServer { server with batch := rest } kernel = some after := by
  rw [Lifecycle.step] at hstep
  rw [hbatch] at hstep
  exact hstep

/-- A live connection keeps its place when the listening channel is taken off the batch. -/
theorem mem_rest (hinv : Inv allowed listenfd state) {rest : List ℕ}
    (hbatch : state.server.batch = 0 :: rest)
    (hobject : state.server.objects address = some connection)
    (hmem : address ∈ state.server.batch) : address ∈ rest := by
  rw [hbatch] at hmem
  refine (List.mem_cons.mp hmem).resolve_left ?_
  rintro rfl
  exact absurd (hinv.life.linked hobject).positive (Nat.lt_irrefl 0)

/-- What accepting a connection leaves. -/
theorem accepted_spec {server after : Server} {kernel : Kernel} {clientfd : Fd}
    (haccepted : kernel.accepted = some clientfd)
    (hfree : server.opened clientfd = false →
      server.connections.get? clientfd = none ∧ server.ep.interest clientfd = none)
    (hhandle : server.handleServer kernel = some after) :
    server.opened clientfd = false ∧ after.batch = server.batch ∧
      after.ep = server.ep.register clientfd ⟨EPOLLET ||| EPOLLIN, server.built + 1⟩ ∧
        after.objects = Function.update server.objects (server.built + 1)
          (some ⟨clientfd, ⟨server.built + 1, clientfd, true, EPOLLET ||| EPOLLIN, 0⟩,
            ⟨[]⟩, ⟨[]⟩⟩) := by
  rw [Server.handleServer] at hhandle
  split at hhandle
  · rw [haccepted] at hhandle
    obtain ⟨opened, hopened, hbuilt⟩ := Option.bind_eq_some_iff.mp hhandle
    rw [Server.accept, Option.ite_none_left_eq_some] at hopened
    obtain ⟨hclosed, hopened⟩ := hopened
    have hclosed := Bool.eq_false_of_not_eq_true hclosed
    cases hopened
    obtain ⟨hstored, hinterest⟩ := hfree hclosed
    cases (newconnection_eq (by exact hstored) (by exact hinterest)).symm.trans hbuilt
    exact ⟨hclosed, rfl, rfl, rfl⟩
  all_goals cases hhandle

/-- What the handler of the listening channel does: nothing, or it builds a connection, which is
registered at once. -/
inductive Accepted (state : State) (rest : List ℕ) (circumstances : Circumstances) : State → Prop
  | nothing :
      Accepted state rest circumstances
        { state with server := { state.server with batch := rest } }
  | built {clientfd : Fd} {server : Server} (hclosed : state.server.opened clientfd = false)
      (hearly : circumstances.early ≠ [] → circumstances.level &&& EPOLLIN ≠ 0)
      (hrest : server.batch = rest)
      (hep : server.ep = { state.server.ep with
        level := Function.update state.server.ep.level clientfd circumstances.level }.register
          clientfd ⟨EPOLLET ||| EPOLLIN, state.server.built + 1⟩)
      (hobjects : server.objects = Function.update state.server.objects (state.server.built + 1)
        (some ⟨clientfd, ⟨state.server.built + 1, clientfd, true, EPOLLET ||| EPOLLIN, 0⟩,
          ⟨[]⟩, ⟨[]⟩⟩)) :
      Accepted state rest circumstances
        { server
          unread := Function.update state.unread clientfd circumstances.early
          received := Function.update state.received clientfd []
          sent := Function.update state.sent clientfd [] }

/-- It keeps the life cycle right. -/
theorem accepted_of_accept {circumstances : Circumstances} {rest : List ℕ}
    (hinv : Lifecycle.Inv listenfd state.server) (hbatch : state.server.batch = 0 :: rest)
    (hstep : accept state circumstances = some next) :
    Lifecycle.Inv listenfd next.server ∧ Accepted state rest circumstances next := by
  rw [accept] at hstep
  split at hstep
  · rename_i hnone
    obtain ⟨server, hserver, rfl⟩ := Option.map_eq_some_iff.mp hstep
    refine ⟨hinv.step hserver, ?_⟩
    have hhandle := handleServer_of_step hserver hbatch
    rw [Server.handleServer] at hhandle
    split at hhandle
    · rw [hnone] at hhandle
      cases hhandle
      exact .nothing
    all_goals cases hhandle
  · rename_i clientfd haccepted
    rw [Option.ite_none_right_eq_some] at hstep
    obtain ⟨hearly, hmap⟩ := hstep
    obtain ⟨server, hserver, rfl⟩ := Option.map_eq_some_iff.mp hmap
    have hlevel := @life_of_interest listenfd state.server { state.server.ep with
      level := Function.update state.server.ep.level clientfd circumstances.level } hinv rfl
    obtain ⟨hclosed, hrest, hep, hobjects⟩ :=
      accepted_spec haccepted (by exact hlevel.free) (handleServer_of_step hserver hbatch)
    exact ⟨hlevel.step hserver, .built hclosed hearly hrest hep hobjects⟩

/-- A live connection is not touched. -/
theorem Accepted.keeps {circumstances : Circumstances} {rest : List ℕ}
    (haccepted : Accepted state rest circumstances next)
    (hinv : Lifecycle.Inv listenfd state.server)
    (hobject : state.server.objects address = some connection) :
    next.server.objects address = some connection := by
  cases haccepted with
  | nothing => exact hobject
  | built hclosed hearly hrest hep hobjects =>
    have hbuilt : address ≠ state.server.built + 1 :=
      (Nat.lt_succ_of_le (hinv.linked hobject).built).ne
    dsimp only
    rw [hobjects, Function.update_of_ne hbuilt, hobject]

/-- A connection that is accepted is served. What arrived before is on the ready list. -/
theorem Inv.accepted {circumstances : Circumstances} {rest : List ℕ}
    (hinv : Inv allowed listenfd state) (hbatch : state.server.batch = 0 :: rest)
    (hlife : Lifecycle.Inv listenfd next.server)
    (haccepted : Accepted state rest circumstances next) : Inv allowed listenfd next := by
  refine ⟨hlife, fun address connection hobject ↦ ?_⟩
  cases haccepted with
  | nothing =>
    have hclient := (hinv.life.linked hobject).client
    exact (hinv.served address connection hobject).frame hclient (.refl _ _)
      (mem_rest hinv hbatch hobject) rfl rfl rfl
  | @built clientfd server hclosed hearly hrest hep hobjects =>
    dsimp only at hobject
    rw [hobjects] at hobject
    by_cases haddress : address = state.server.built + 1
    · rw [haddress, Function.update_self] at hobject
      cases hobject
      have hwants : (EPOLLET ||| EPOLLIN) &&& EPOLLIN ≠ 0 := by decide
      refine ⟨rfl, BitVec.zero_and, rfl, ?_, fun hin ↦ .inl ?_, ?_⟩
      · simpa only [hep, Epoll.register, Function.update_self] using hearly
      · simp only [hep, Epoll.register, Function.update_self] at hin ⊢
        rw [Bool.or_eq_true, bne_iff_ne]
        exact .inr (ne_zero_of_in (in_report hin hwants))
      · simp only [Function.update_self]
        exact .nil allowed
    · rw [Function.update_of_ne haddress] at hobject
      have hne : connection.fd ≠ clientfd := by
        rintro rfl
        rw [(hinv.life.linked hobject).opened] at hclosed
        cases hclosed
      refine (hinv.served address connection hobject).frame hne ?_ ?_ ?_ ?_ ?_
      · have hsame : SameElse clientfd state.server.ep { state.server.ep with
            level := Function.update state.server.ep.level clientfd circumstances.level } :=
          ⟨fun _ _ ↦ rfl, fun _ hother ↦ Function.update_of_ne hother _ _, fun _ _ ↦ rfl⟩
        rw [hep]
        exact hsame.trans (EdgeTriggering.sameElse_register _ _ _)
      · dsimp only
        rw [hrest]
        exact mem_rest hinv hbatch hobject
      all_goals exact Function.update_of_ne hne _ _

/-! ### The handler of a connection -/

/-- The handler of a connection is next. -/
theorem handleClient_of_step {server after : Server} {kernel : Kernel} {rest : List ℕ}
    (hstep : Lifecycle.step server (.handleevent kernel) = some after)
    (hbatch : server.batch = address :: rest) (hne : address ≠ 0)
    (hobject : server.objects address = some connection) :
    Server.handleClient { server with batch := rest } kernel address connection = some after := by
  rw [Lifecycle.step] at hstep
  rw [hbatch] at hstep
  simp only [if_neg hne, hobject] at hstep
  exact hstep

/-- What erasing a connection leaves. -/
theorem erase_spec {server : Server} (hstored : server.connections.get? connection.fd =
      some address) (hobject : server.objects address = some connection) :
    (server.erase connection.fd).objects = Function.update server.objects address none ∧
      (server.erase connection.fd).ep = server.ep.close connection.fd ∧
        (server.erase connection.fd).batch = server.batch := by
  simp only [Server.erase, hstored, Server.destroy, hobject, and_self]

/-- A handler erases its connection: nothing but an error was reported, or the peer has closed. -/
def Ends (connection : Connection) (kernel : Kernel) : Prop :=
  connection.clientchannel.revent &&& EPOLLIN = 0 ∨
    ∃ closed, connection.onmessage kernel.stale kernel.results = .ok (.closed closed)

/-- What the handler of a connection does: it erases the connection, or reads what is unread and
answers the messages found. -/
inductive Handled (state : State) (rest : List ℕ) (address : ℕ) (connection : Connection)
    (circumstances : Circumstances) : State → Prop
  | erased {server : Server}
      (hserver : Lifecycle.step state.server (.handleevent circumstances.kernel) = some server)
      (hends : Ends connection circumstances.kernel)
      (hobjects : server.objects = Function.update state.server.objects address none)
      (hep : server.ep = state.server.ep.close connection.fd) (hrest : server.batch = rest) :
      Handled state rest address connection circumstances { state with server }
  | drained {server : Server} {drained : Connection} {messages pieces : List Bytes}
      (hserver : Lifecycle.step state.server (.handleevent circumstances.kernel) = some server)
      (hin : connection.clientchannel.revent &&& EPOLLIN ≠ 0)
      (hcall : connection.onmessage circumstances.kernel.stale circumstances.kernel.results =
        .ok (.drained drained messages))
      (hall : bytesOf circumstances.kernel.results = state.unread connection.fd)
      (hpieces : accepted messages circumstances.writens = some pieces)
      (hobjects : server.objects = Function.update state.server.objects address (some drained))
      (hep : server.ep = state.server.ep) (hrest : server.batch = rest) :
      Handled state rest address connection circumstances
        { server := { server with ep := server.ep.lower connection.fd EPOLLIN }
          unread := Function.update state.unread connection.fd []
          received := Function.update state.received connection.fd
            (state.received connection.fd ++ state.unread connection.fd)
          sent := Function.update state.sent connection.fd
            (state.sent connection.fd ++ pieces.flatten) }

/-- No other branch is taken. -/
theorem handled_of_serve {circumstances : Circumstances} {rest : List ℕ}
    (hinv : Inv allowed listenfd state) (hbatch : state.server.batch = address :: rest)
    (hne : address ≠ 0) (hobject : state.server.objects address = some connection)
    (hstep : serve state connection circumstances = some next) :
    Handled state rest address connection circumstances next := by
  rw [serve] at hstep
  obtain ⟨server, hserver, hstep⟩ := Option.bind_eq_some_iff.mp hstep
  have hhandle := handleClient_of_step hserver hbatch hne hobject
  have hstored := (hinv.life.linked hobject).stored
  rw [Server.handleClient] at hhandle
  have hbranch := (hinv.served address connection hobject).branch
  by_cases hin : connection.clientchannel.revent &&& EPOLLIN = 0
  · rw [hbranch, if_pos hin] at hstep hhandle
    cases hstep
    cases hhandle
    obtain ⟨hobjects, hep, hrest⟩ :=
      @erase_spec address connection { state.server with batch := rest } hstored hobject
    exact .erased hserver (.inl hin) hobjects hep hrest
  · rw [hbranch, if_neg hin] at hstep hhandle
    dsimp only at hstep hhandle
    split at hhandle
    · cases hhandle
    · cases hhandle
    · rename_i drained messages hcall
      rw [hcall] at hstep
      dsimp only at hstep
      rw [Option.ite_none_right_eq_some] at hstep
      obtain ⟨hall, hmap⟩ := hstep
      obtain ⟨pieces, hpieces, rfl⟩ := Option.map_eq_some_iff.mp hmap
      cases hhandle
      exact .drained hserver hin hcall hall hpieces rfl rfl rfl
    · rename_i closed hcall
      rw [hcall] at hstep
      cases hstep
      cases hhandle
      obtain ⟨hfd, -⟩ := keeps_of_onmessage hcall
      have herased := @erase_spec address closed { state.server with
        batch := rest
        objects := Function.update state.server.objects address (some closed) }
        (by rw [hfd]; exact hstored) (Function.update_self _ _ _)
      obtain ⟨hobjects, hep, hrest⟩ := herased
      refine .erased hserver (.inr ⟨closed, hcall⟩) ?_ ?_ hrest
      · rw [hobjects, Function.update_idem]
      · rw [hep, hfd]

/-- The connection is destroyed exactly when its handler erases it. -/
theorem Handled.objects {circumstances : Circumstances} {rest : List ℕ}
    (hhandled : Handled state rest address connection circumstances next) :
    ∃ after, next.server.objects = Function.update state.server.objects address after ∧
      (after = none ↔ Ends connection circumstances.kernel) := by
  cases hhandled with
  | erased _ hends hobjects => exact ⟨none, hobjects, iff_of_true rfl hends⟩
  | @drained _ drained _ _ _ hin hcall _ _ hobjects =>
    refine ⟨some drained, hobjects, iff_of_false (Option.some_ne_none _) ?_⟩
    rintro (herror | ⟨closed, hclosed⟩)
    · exact hin herror
    · rw [hcall] at hclosed
      cases hclosed

/-- The connection that was handled is served, when all pieces accepted are allowed, and so are the
others. -/
theorem Inv.handled {circumstances : Circumstances} {rest : List ℕ}
    (hinv : Inv allowed listenfd state) (hbatch : state.server.batch = address :: rest)
    (hobject : state.server.objects address = some connection)
    (hallows : Allows allowed state (.handleevent circumstances))
    (hhandled : Handled state rest address connection circumstances next) :
    Inv allowed listenfd next := by
  have hother : ∀ {other found}, other ≠ address → state.server.objects other = some found →
      found.fd ≠ connection.fd :=
    fun hne hfound hfd ↦ hne (hinv.life.eq_of_fd hfound hobject hfd)
  have hpopped : ∀ {other}, other ≠ address → other ∈ state.server.batch → other ∈ rest := by
    intro other hne hmem
    rw [hbatch] at hmem
    exact (List.mem_cons.mp hmem).resolve_left hne
  cases hhandled with
  | erased hserver hends hobjects hep hrest =>
    refine ⟨hinv.life.step hserver, fun other found hfound ↦ ?_⟩
    dsimp only at hfound
    rw [hobjects] at hfound
    have hne : other ≠ address := by
      rintro rfl
      rw [Function.update_self] at hfound
      cases hfound
    rw [Function.update_of_ne hne] at hfound
    refine (hinv.served other found hfound).frame (hother hne hfound) ?_ ?_ rfl rfl rfl
    · rw [hep]
      exact EdgeTriggering.sameElse_close _ _
    · rw [hrest]
      exact hpopped hne
  | @drained server drained messages pieces hserver hin hcall hall hpieces hobjects hep hrest =>
    refine ⟨life_of_interest (hinv.life.step hserver) rfl, fun other found hfound ↦ ?_⟩
    dsimp only at hfound
    rw [hobjects] at hfound
    by_cases hne : other = address
    · subst hne
      rw [Function.update_self] at hfound
      cases hfound
      have hserved := hinv.served other connection hobject
      have hdispatched : dispatched state circumstances = messages := by
        rw [dispatched, hbatch]
        simp only [hobject, hcall]
      obtain ⟨inputbuffer, hdrain, rfl⟩ := onmessage_drained hcall
      rw [hall] at hdrain
      refine { hserved with readable := ?_, noticed := ?_, answered := ?_ }
      · dsimp only
        rw [Function.update_self]
        exact fun hunread ↦ absurd rfl hunread
      · dsimp only
        rw [Epoll.level_lower, Function.update_self]
        exact fun hlevel ↦ absurd (in_and_not_in _) hlevel
      · simp only [Function.update_self]
        exact hserved.answered.read hdrain (hdispatched ▸ hallows pieces (hdispatched ▸ hpieces))
    · rw [Function.update_of_ne hne] at hfound
      have hfd := hother hne hfound
      refine (hinv.served other found hfound).frame hfd ?_ ?_ ?_ ?_ ?_
      · rw [hep]
        exact EdgeTriggering.sameElse_lower _ _ _
      · dsimp only
        rw [hrest]
        exact hpopped hne
      all_goals exact Function.update_of_ne hfd _ _

/-- Every step keeps the connections served, when what it sends is allowed. -/
theorem Inv.step {label : Label} (hinv : Inv allowed listenfd state)
    (hallows : Allows allowed state label)
    (hstep : DirectReplies.step listenfd state label = some next) : Inv allowed listenfd next := by
  cases label with
  | arrive fd bytes =>
    cases hstep
    refine hinv.raise rfl (fun _ ↦ .inr (by decide)) (fun other hother ↦ ?_) rfl rfl
    exact Function.update_of_ne hother _ _
  | raise fd events =>
    cases hstep
    exact hinv.raise rfl .inl (fun _ _ ↦ rfl) rfl rfl
  | epollWait reported => exact hinv.epollWait hstep
  | handleevent circumstances =>
    rw [DirectReplies.step] at hstep
    split at hstep
    · cases hstep
    · rename_i address rest hbatch
      split_ifs at hstep with hzero
      · obtain ⟨hlife, haccepted⟩ := accepted_of_accept hinv.life (hzero ▸ hbatch) hstep
        exact hinv.accepted (hzero ▸ hbatch) hlife haccepted
      · split at hstep
        · cases hstep
        · rename_i connection hobject
          exact hinv.handled hbatch hobject hallows
            (handled_of_serve hinv hbatch hzero hobject hstep)

/-- In every run that sends what is allowed, all live connections are served. -/
theorem inv_of_reaches (hreach : (system listenfd).ReachesUnder (Allows allowed) state) :
    Inv allowed listenfd state := by
  refine hreach.invariant (Inv allowed listenfd) (fun start hinitial ↦ ?_)
    fun _ _ _ hinv hallows hstep ↦ hinv.step hallows hstep
  refine ⟨inv_of_initial hinitial, fun address connection hobject ↦ ?_⟩
  rw [Lifecycle.Initial.objects hinitial] at hobject
  cases hobject

/-- In every run the beginnings of the replies are sent. -/
theorem inv_of_reachable (hreach : (system listenfd).Reachable state) :
    Inv (fun message piece ↦ piece <+: handleMessage message) listenfd state := by
  refine inv_of_reaches (hreach.mono fun state label _ ↦ ?_)
  cases label with
  | handleevent circumstances => exact fun _ haccepted ↦ forall₂_accepted haccepted
  | arrive | raise | epollWait => trivial

/-- In a run in which `::send` accepts whole replies, the replies are sent. -/
theorem inv_of_whole (hreach : (system listenfd).ReachesUnder Whole state) :
    Inv (fun message piece ↦ piece = handleMessage message) listenfd state := by
  refine inv_of_reaches (hreach.mono fun state label hwhole ↦ ?_)
  cases label with
  | handleevent circumstances =>
    intro pieces haccepted
    rw [show circumstances.writens = _ from hwhole] at haccepted
    exact accepted_whole haccepted
  | arrive | raise | epollWait => trivial

/-! ### What a peer gets -/

/-- When the loop is back at `epoll_wait`, all that has arrived on a connection that is not on the
ready list has been read. -/
theorem Served.unread_eq_nil (hserved : Served allowed state address connection)
    (hbatch : state.server.batch = []) (hready : state.server.ep.ready connection.fd = false) :
    state.unread connection.fd = [] := by
  by_contra hunread
  rcases hserved.noticed (hserved.readable hunread) with hlisted | ⟨hmem, -⟩
  · rw [hready] at hlisted
    cases hlisted
  · rw [hbatch] at hmem
    cases hmem

end Steps

section Results

variable {listenfd : Fd} {state next : State} {address : ℕ} {connection : Connection}

/-- A server with its listening socket on the descriptor `3` and no connections. -/
def start : State := ⟨.start, fun _ ↦ [], fun _ ↦ [], fun _ ↦ []⟩

/-- A connection is accepted, an empty request arrives, and `::send` accepts `writen` bytes of the
reply to it. -/
def answering (writen : ℤ) : List Label :=
  [.epollWait [3], .handleevent ⟨.five, [], 0, []⟩, .arrive 5 (encode []), .epollWait [5],
    .handleevent ⟨⟨none, [.data ⟨encode [], by decide⟩, .failed EAGAIN], fun _ _ ↦ 0, 0⟩,
      [writen], 0, []⟩]

/-- In every run, for every live connection: the output buffer is empty, and the bytes sent are
beginnings of the replies to its first requests, one for each, in order; when no request is `" "`,
to all of them. When the loop is back at `epoll_wait` and the connection is not on the ready list,
all that has arrived has been read. -/
theorem replies_cut (hreach : (system listenfd).Reachable state)
    (hobject : state.server.objects address = some connection) :
    connection.outputbuffer.buf = [] ∧
      (∃ pieces, List.Forall₂ (fun message piece ↦ piece <+: handleMessage message)
          ((requests (state.received connection.fd)).take pieces.length) pieces ∧
        state.sent connection.fd = pieces.flatten ∧
        (noMessage ∉ frameParser.items (state.received connection.fd) →
          pieces.length = (requests (state.received connection.fd)).length)) ∧
      (state.server.batch = [] → state.server.ep.ready connection.fd = false →
        state.unread connection.fd = []) := by
  have hserved := (inv_of_reachable hreach).served address connection hobject
  exact ⟨hserved.output, hserved.answered.pieces, hserved.unread_eq_nil⟩

/-- Of the ten bytes of the reply to an empty request, three are accepted. -/
theorem replies_cut_three : ∃ (state : State) (pieces : List Bytes),
    state.sent 5 = [6, 0, 0] ∧ requests (state.received 5) = [[]] ∧
      List.Forall₂ (fun message piece ↦ piece <+: handleMessage message)
        ((requests (state.received 5)).take pieces.length) pieces ∧
      state.sent 5 = pieces.flatten := by
  have hfinal : ((system 3).run start (answering 3)).map (fun state ↦ decide
      ((state.server.objects 1).map Connection.fd = some 5 ∧ state.sent 5 = [6, 0, 0] ∧
        requests (state.received 5) = [[]])) = some true := by
    decide +kernel
  obtain ⟨state, hrun, hstate⟩ := Option.map_eq_some_iff.mp hfinal
  obtain ⟨hfd, hsent, hrequests⟩ := of_decide_eq_true hstate
  obtain ⟨connection, hobject, hfd⟩ := Option.map_eq_some_iff.mp hfd
  have hreach : (system 3).Reachable state :=
    .of_run (.initial (by exact initial_start)) _ hrun
  obtain ⟨-, ⟨pieces, hpieces, hflatten, -⟩, -⟩ := replies_cut hreach hobject
  rw [hfd] at hpieces hflatten
  exact ⟨state, pieces, hsent, hrequests, hpieces, hflatten⟩

/-- In every run, a step destroys a live connection exactly when it is the handler of that
connection and nothing but an error was reported for it, or its peer has closed. -/
theorem destroyed_iff {label : Label} (hreach : (system listenfd).Reachable state)
    (hobject : state.server.objects address = some connection)
    (hstep : step listenfd state label = some next) :
    next.server.objects address = none ↔ ∃ circumstances, label = .handleevent circumstances ∧
      state.server.batch.head? = some address ∧ Ends connection circumstances.kernel := by
  have hinv := inv_of_reachable hreach
  have hkept : ∀ {objects : ℕ → Option Connection}, fdOf objects = fdOf state.server.objects →
      objects address ≠ none := by
    intro objects hfds hnone
    have hfd := congrFun hfds address
    rw [fdOf, fdOf, hnone, hobject] at hfd
    cases hfd
  cases label with
  | arrive | raise =>
    cases hstep
    exact iff_of_false (hkept rfl) (by simp)
  | epollWait reported =>
    obtain ⟨server, rfl, -, -, hreported⟩ := reported_of_step hinv hstep
    exact iff_of_false (hkept hreported.fds) (by simp)
  | handleevent circumstances =>
    rw [step] at hstep
    split at hstep
    · cases hstep
    · rename_i first rest hbatch
      rw [hbatch, List.head?_cons]
      split_ifs at hstep with hzero
      · have hpositive := (hinv.life.linked hobject).positive
        obtain ⟨-, haccepted⟩ := accepted_of_accept hinv.life (hzero ▸ hbatch) hstep
        rw [haccepted.keeps hinv.life hobject]
        refine iff_of_false (Option.some_ne_none _) ?_
        rintro ⟨-, -, hfirst, -⟩
        have hsame := Option.some.inj hfirst
        omega
      · split at hstep
        · cases hstep
        · rename_i found hfound
          have hhandled := handled_of_serve hinv hbatch hzero hfound hstep
          obtain ⟨after, hobjects, hafter⟩ := hhandled.objects
          rw [hobjects]
          by_cases hsame : first = address
          · subst hsame
            rw [hobject] at hfound
            cases hfound
            rw [Function.update_self, hafter]
            refine ⟨fun hends ↦ ⟨_, rfl, rfl, hends⟩, ?_⟩
            rintro ⟨_, hlabel, -, hends⟩
            cases hlabel
            exact hends
          · rw [Function.update_of_ne (Ne.symm hsame), hobject]
            refine iff_of_false (Option.some_ne_none _) ?_
            rintro ⟨-, -, hfirst, -⟩
            exact hsame (Option.some.inj hfirst)

/-- An error is reported for a connection. -/
theorem destroyed_iff_error : ∃ (state next : State) (label : Label),
    step 3 state label = some next ∧ (state.server.objects 1).isSome = true ∧
      next.server.objects 1 = none := by
  let labels : List Label := [.epollWait [3], .handleevent ⟨.five, [], 0, []⟩, .raise 5 EPOLLERR,
    .epollWait [5]]
  have hfinal : ((system 3).run start labels).map (fun state ↦ decide
      ((state.server.objects 1).map (fun connection ↦
        connection.clientchannel.revent &&& EPOLLIN) = some 0 ∧
          state.server.batch.head? = some 1 ∧
            (step 3 state (.handleevent ⟨.five, [], 0, []⟩)).isSome = true)) = some true := by
    decide +kernel
  obtain ⟨state, hrun, hstate⟩ := Option.map_eq_some_iff.mp hfinal
  obtain ⟨hrevent, hbatch, hstep⟩ := of_decide_eq_true hstate
  obtain ⟨connection, hobject, hrevent⟩ := Option.map_eq_some_iff.mp hrevent
  obtain ⟨next, hnext⟩ := Option.isSome_iff_exists.mp hstep
  have hreach : (system 3).Reachable state :=
    .of_run (.initial (by exact initial_start)) labels hrun
  exact ⟨state, next, _, hnext, by rw [hobject]; rfl,
    (destroyed_iff hreach hobject hnext).mpr ⟨_, rfl, hbatch, .inl hrevent⟩⟩

end Results

end Reactor.SingleReactor.DirectReplies
