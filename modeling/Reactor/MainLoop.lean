import Reactor.InterestList
import Reactor.Library.Measure
import Reactor.Library.Simulation

/-!
# The main event loop

The main loop has two channels, both level-triggered: that of the listening socket, whose read
callback is `Acceptor::handle_newconnection`, and that of the timer, whose read callback is
`Tcpserver::handle_timer`. `handle_newconnection` accepts one connection for each report, and gives
up when `accept` fails; `handle_timer` reads the timer, sets it again for `timeval` seconds, and
evicts. The timer is set for one expiration at a time, so that it goes on only if it is set again.

`step` is the loop with the server of `InterestList`: `newconnection` and the loop of `handle_timer`
run on its thread, and what the threads of the sub-loops do comes in between. The operations of the
server, a whole `newconnection`, `handle_timer` or `closeconnection` each, happen one at a time;
`Eviction` and `Publication` are about their parts. Peers connect, and the timer expires, at any
time. Peers are numbered in the order in which the kernel put their connections into the queue of
the listening socket (`backlog`).

`accepted_once` is the safety of this: connections are accepted in order and none is lost, not even
by an `accept` that fails, and an object is built for each of them, which its loop watches. By
`accepts_all` the loop of a server with a sub-loop does not come to rest before it has accepted all.
`EventLoop::stop` does not wake the main loop, which is left to the timer: `stop_returns_iff` says
that this works exactly when the timer is set for a positive time.
-/

set_option autoImplicit false
set_option relaxedAutoImplicit false

namespace Reactor.MainLoop

open Library
open InterestList (EventFds)
open Lifetime (Conn loopOf)

/-- A timer descriptor: it is off, it is set, or it can be read. -/
inductive Timer
  | disarmed
  | armed
  | expired
  deriving DecidableEq

/-- `timerfd_settime` for some seconds, and no interval. A negative time is refused. -/
def Timer.settime (sec : ℤ) (timer : Timer) : Timer :=
  if 0 < sec then .armed else if sec = 0 then .disarmed else timer

/-- Reading the timer descriptor. -/
def Timer.read : Timer → Timer
  | .expired => .disarmed
  | timer => timer

/-- `create_timerfd`. -/
def createTimerfd (sec : ℤ) : Timer := Timer.settime sec .disarmed

/-- The descriptors the main loop watches. -/
inductive Source
  | listenfd
  | timerfd
  deriving DecidableEq

/-- Where the thread is in `run`: in `epoll_wait`, or behind it with the channels that have not been
handled, after the last of which it tests `stop_`; or it has returned. -/
inductive Phase
  | waiting
  | handling (channels : List Source)
  | returned
  deriving DecidableEq

structure State where
  /-- The connections, and the epoll instances of the sub-loops. -/
  server : IdleEviction.State
  /-- The peers whose connections are to be accepted. -/
  backlog : List ℕ
  timer : Timer
  phase : Phase
  stop : Bool
  /-- The number of peers that have connected. -/
  arrived : ℕ
  /-- The peers whose connections have been accepted, with the objects built for them. -/
  accepted : List (ℕ × Conn)

/-- What `accept` returns when it succeeds, with the address and the clock of the construction. -/
structure Accept where
  clientfd : Fd
  this : ℕ
  now : ℤ

inductive Label
  /-- A connection is established. -/
  | connect
  /-- The time of the timer is over. -/
  | expire
  /-- `EventLoop::stop`, which only assigns `stop_` here. -/
  | stop
  | test
  | epollWait (reported : List Source)
  /-- With what `accept` returns; it may fail. -/
  | handleNewconnection (accept : Option Accept)
  | handleTimer (now : ℤ)
  /-- Another thread calls an operation of the server. -/
  | server (label : IdleEviction.Label)

/-- A descriptor can be read. -/
def ready (state : State) : Source → Bool
  | .listenfd => !state.backlog.isEmpty
  | .timerfd => decide (state.timer = .expired)

/-- The operation is one of the threads of the sub-loops. -/
def OfSubLoop : IdleEviction.Label → Bool
  | .newconnection _ _ _ | .handleTimer _ => false
  | .onmessage _ _ _ | .closeClient _ _ | .sendInloop _ _ | .sendClient _ _ => true

section Steps

variable (wakeup : EventFds) (threadnum : ℕ) (timeout timeval : ℤ)

def handleNewconnection (state : State) : Option Accept → Option State
  | none => some state
  | some accept =>
    match state.backlog with
    | [] => none
    | peer :: rest =>
      (InterestList.step wakeup threadnum timeout state.server
        (.operation (.newconnection accept.clientfd accept.this accept.now))).map fun server ↦
          { state with
            server
            backlog := rest
            accepted := state.accepted ++
              [(peer, (accept.clientfd, state.server.opened accept.clientfd))] }

def handleTimer (state : State) (now : ℤ) : Option State :=
  (InterestList.step wakeup threadnum timeout state.server
    (.operation (.handleTimer now))).map fun server ↦
    { state with server, timer := state.timer.read.settime timeval }

def step (state : State) : Label → Option State
  | .connect =>
    some { state with backlog := state.backlog ++ [state.arrived], arrived := state.arrived + 1 }
  | .expire => if state.timer = .armed then some { state with timer := .expired } else none
  | .stop => some { state with stop := true }
  | .test =>
    if state.phase = .handling [] then
      some { state with phase := if state.stop then .returned else .waiting }
    else none
  | .epollWait reported =>
    if state.phase = .waiting ∧ reported ≠ [] ∧ reported.Nodup ∧
        ∀ source ∈ reported, ready state source = true then
      some { state with phase := .handling reported }
    else none
  | .handleNewconnection accept =>
    match state.phase with
    | .handling (.listenfd :: rest) =>
      handleNewconnection wakeup threadnum timeout { state with phase := .handling rest } accept
    | _ => none
  | .handleTimer now =>
    match state.phase with
    | .handling (.timerfd :: rest) =>
      handleTimer wakeup threadnum timeout timeval { state with phase := .handling rest } now
    | _ => none
  | .server label =>
    if OfSubLoop label = true then
      (InterestList.step wakeup threadnum timeout state.server (.operation label)).map fun server ↦
        { state with server }
    else none

/-- The server that the constructor has built, before `start`. -/
structure Initial (state : State) : Prop where
  server : InterestList.Initial wakeup threadnum state.server
  backlog : state.backlog = []
  timer : state.timer = createTimerfd timeval
  phase : state.phase = .handling []
  stop : state.stop = false
  arrived : state.arrived = 0
  accepted : state.accepted = []

/-- The system, for a number of sub-loops, the time after which a connection is evicted, and the
time the timer is set for. -/
def system : TransitionSystem State Label where
  initial := Initial wakeup threadnum timeval
  step := step wakeup threadnum timeout timeval

/-- What a step does. -/
inductive Effect (state : State) : Label → State → Prop
  | connect : Effect state .connect
      { state with backlog := state.backlog ++ [state.arrived], arrived := state.arrived + 1 }
  | expire (harmed : state.timer = .armed) :
      Effect state .expire { state with timer := .expired }
  | stop : Effect state .stop { state with stop := true }
  | leave (hphase : state.phase = .handling []) (hstop : state.stop = true) :
      Effect state .test { state with phase := .returned }
  | goOn (hphase : state.phase = .handling []) (hstop : state.stop = false) :
      Effect state .test { state with phase := .waiting }
  | epollWait {reported : List Source} (hphase : state.phase = .waiting) (hsome : reported ≠ [])
      (hnodup : reported.Nodup) (hready : ∀ source ∈ reported, ready state source = true) :
      Effect state (.epollWait reported) { state with phase := .handling reported }
  | refuse {rest : List Source} (hphase : state.phase = .handling (.listenfd :: rest)) :
      Effect state (.handleNewconnection none) { state with phase := .handling rest }
  | accept {rest : List Source} {peers : List ℕ} {peer : ℕ} {accept : Accept}
      {server : IdleEviction.State} (hphase : state.phase = .handling (.listenfd :: rest))
      (hbacklog : state.backlog = peer :: peers)
      (hserver : InterestList.step wakeup threadnum timeout state.server
        (.operation (.newconnection accept.clientfd accept.this accept.now)) = some server) :
      Effect state (.handleNewconnection (some accept))
        { state with
          server
          backlog := peers
          phase := .handling rest
          accepted := state.accepted ++
            [(peer, (accept.clientfd, state.server.opened accept.clientfd))] }
  | handleTimer {rest : List Source} {now : ℤ} {server : IdleEviction.State}
      (hphase : state.phase = .handling (.timerfd :: rest))
      (hserver : InterestList.step wakeup threadnum timeout state.server
        (.operation (.handleTimer now)) = some server) :
      Effect state (.handleTimer now)
        { state with
          server
          timer := state.timer.read.settime timeval
          phase := .handling rest }
  | server {label : IdleEviction.Label} {server : IdleEviction.State}
      (hsub : OfSubLoop label = true)
      (hserver : InterestList.step wakeup threadnum timeout state.server (.operation label) =
        some server) :
      Effect state (.server label) { state with server }

variable {wakeup threadnum timeout timeval} {state next : State}

theorem effect_of_step {label : Label}
    (hstep : step wakeup threadnum timeout timeval state label = some next) :
    Effect wakeup threadnum timeout timeval state label next := by
  cases label with
  | connect =>
    cases hstep
    exact .connect
  | expire =>
    rw [step, Option.ite_none_right_eq_some] at hstep
    obtain ⟨harmed, heq⟩ := hstep
    cases heq
    exact .expire harmed
  | stop =>
    cases hstep
    exact .stop
  | test =>
    rw [step, Option.ite_none_right_eq_some] at hstep
    obtain ⟨hphase, heq⟩ := hstep
    cases heq
    split_ifs with hstop
    · exact .leave hphase hstop
    · exact .goOn hphase (Bool.not_eq_true _ ▸ hstop)
  | epollWait reported =>
    rw [step, Option.ite_none_right_eq_some] at hstep
    obtain ⟨⟨hphase, hsome, hnodup, hready⟩, heq⟩ := hstep
    cases heq
    exact .epollWait hphase hsome hnodup hready
  | handleNewconnection accept =>
    rw [step] at hstep
    split at hstep
    · rename_i rest hphase
      cases accept with
      | none =>
        cases hstep
        exact .refuse hphase
      | some accept =>
        rw [handleNewconnection] at hstep
        split at hstep
        · cases hstep
        · rename_i peer peers hbacklog
          obtain ⟨server, hserver, rfl⟩ := Option.map_eq_some_iff.mp hstep
          exact .accept hphase hbacklog hserver
    · cases hstep
  | handleTimer now =>
    rw [step] at hstep
    split at hstep
    · rename_i rest hphase
      obtain ⟨server, hserver, rfl⟩ := Option.map_eq_some_iff.mp hstep
      exact .handleTimer hphase hserver
    · cases hstep
  | server label =>
    rw [step, Option.ite_none_right_eq_some] at hstep
    obtain ⟨hsub, hmap⟩ := hstep
    obtain ⟨server, hserver, rfl⟩ := Option.map_eq_some_iff.mp hmap
    exact .server hsub hserver

/-! ### The server -/

/-- The main loop drives a server of `InterestList`. -/
theorem simulation : Simulation (system wakeup threadnum timeout timeval)
    (InterestList.system wakeup threadnum timeout) (fun _ _ ↦ True) (fun _ _ ↦ True)
    fun state server ↦ server = state.server := by
  refine ⟨fun start hinitial ↦ ⟨_, hinitial.server, rfl⟩, ?_⟩
  rintro before server label after rfl - hstep
  have hone : ∀ {label : InterestList.Label} {server : IdleEviction.State},
      InterestList.step wakeup threadnum timeout before.server label = some server →
        ∃ labels final, (InterestList.system wakeup threadnum timeout).GuardedRun (fun _ _ ↦ True)
          before.server labels ∧
            (InterestList.system wakeup threadnum timeout).run before.server labels = some final ∧
              final = server := by
    intro label server hserver
    refine ⟨[label], server, TransitionSystem.guardedRun_true _ _, ?_, rfl⟩
    rw [TransitionSystem.run_cons]
    exact Option.bind_eq_some_iff.mpr ⟨server, hserver, rfl⟩
  cases effect_of_step hstep with
  | accept _ _ hserver | handleTimer _ hserver | server _ hserver => exact hone hserver
  | _ => exact ⟨[], before.server, trivial, rfl, rfl⟩

theorem server_reachable (hreach : (system wakeup threadnum timeout timeval).Reachable state) :
    (InterestList.system wakeup threadnum timeout).Reachable state.server := by
  obtain ⟨server, hserver, rfl⟩ := simulation.reaches hreach
  exact hserver

/-- `newconnection` builds the next object on its descriptor. -/
theorem opened_of_newconnection {server after : IdleEviction.State} {fd : Fd} {this : ℕ} {now : ℤ}
    (hstep : InterestList.step wakeup threadnum timeout server
      (.operation (.newconnection fd this now)) = some after) :
    after.opened = Function.update server.opened fd (server.opened fd + 1) := by
  obtain ⟨_, heq, hstep, -⟩ := InterestList.operation_of_step hstep
  cases heq
  rw [IdleEviction.step] at hstep
  split_ifs at hstep
  dsimp only at hstep
  split at hstep
  · cases hstep
  · cases hstep
    rfl

/-- Dealing with the callbacks of a call builds no object. -/
theorem opened_closed (server : IdleEviction.State) (conn : Conn) (events : List Event) :
    (IdleEviction.closed server conn events).opened = server.opened := by
  unfold IdleEviction.closed
  split_ifs <;> rfl

/-- Nor does a tick of the timer. -/
theorem opened_evictAll (entries : List (Fd × Conn)) (server : IdleEviction.State) :
    (IdleEviction.evictAll server entries).opened = server.opened := by
  induction entries generalizing server with
  | nil => rfl
  | cons entry rest ih => exact ih (IdleEviction.evict server entry.1 entry.2)

/-- The other operations build none. -/
theorem opened_of_step {server after : IdleEviction.State} {label : IdleEviction.Label}
    (hnot : ∀ fd this now, label ≠ .newconnection fd this now)
    (hstep : InterestList.step wakeup threadnum timeout server (.operation label) = some after) :
    after.opened = server.opened := by
  obtain ⟨_, heq, hstep, -⟩ := InterestList.operation_of_step hstep
  cases heq
  cases label with
  | newconnection fd this now => exact absurd rfl (hnot fd this now)
  | onmessage conn ambient results =>
    rw [IdleEviction.step] at hstep
    split_ifs at hstep
    split at hstep
    · cases hstep
      exact opened_closed _ _ _
    · cases hstep
  | closeClient conn failed =>
    rw [IdleEviction.step] at hstep
    split at hstep
    · split at hstep
      · cases hstep
      · cases failed <;> cases hstep <;> exact opened_closed _ _ _
    · cases hstep
  | sendInloop | sendClient =>
    rw [IdleEviction.step] at hstep
    split_ifs at hstep
    split at hstep
    · cases hstep
    · cases hstep
      rfl
  | handleTimer now =>
    rw [IdleEviction.step, IdleEviction.handleTimer_eq] at hstep
    cases hstep
    exact opened_evictAll _ _

/-! ### The invariant -/

/-- The channels still to be handled are distinct, and their descriptors can still be read. -/
def Batched (state : State) : Prop :=
  ∀ channels, state.phase = .handling channels →
    channels.Nodup ∧ ∀ source ∈ channels, ready state source = true

theorem Batched.keep (hbatched : Batched state) (hphase : next.phase = state.phase)
    (hready : ∀ source, ready state source = true → ready next source = true) : Batched next := by
  intro channels hchannels
  obtain ⟨hnodup, hall⟩ := hbatched channels (hphase ▸ hchannels)
  exact ⟨hnodup, fun source hmem ↦ hready source (hall source hmem)⟩

/-- Handling a channel leaves the other descriptors readable. -/
theorem Batched.pop {source : Source} {rest : List Source} (hbatched : Batched state)
    (hphase : state.phase = .handling (source :: rest)) (hnext : next.phase = .handling rest)
    (hready : ∀ other, other ≠ source → ready state other = true → ready next other = true) :
    Batched next := by
  intro channels hchannels
  obtain rfl : rest = channels := by
    rw [hnext] at hchannels
    exact Phase.handling.inj hchannels
  obtain ⟨hnodup, hall⟩ := hbatched _ hphase
  obtain ⟨hnotMem, hrest⟩ := List.nodup_cons.mp hnodup
  refine ⟨hrest, fun other hmem ↦ hready other ?_ (hall other (List.mem_cons_of_mem _ hmem))⟩
  rintro rfl
  exact hnotMem hmem

/-- What holds in every state: what has been accepted and what waits are the arrivals, in order; an
object has been built for each connection accepted, and no others; and the timer, if it is set for
a positive time, is never off. -/
structure Inv (timeval : ℤ) (state : State) : Prop where
  queue : state.accepted.map Prod.fst ++ state.backlog = List.range state.arrived
  once : (state.accepted.map Prod.snd).Nodup
  built : ∀ conn, conn ∈ state.accepted.map Prod.snd ↔ conn.2 < state.server.opened conn.1
  batched : Batched state
  timer : 0 < timeval → state.timer ≠ .disarmed

/-- A connection is accepted. -/
theorem Inv.accept {rest : List Source} {peers : List ℕ} {peer : ℕ} {accept : Accept}
    {server : IdleEviction.State} (hinv : Inv timeval state)
    (hphase : state.phase = .handling (.listenfd :: rest))
    (hbacklog : state.backlog = peer :: peers)
    (hserver : InterestList.step wakeup threadnum timeout state.server
      (.operation (.newconnection accept.clientfd accept.this accept.now)) = some server) :
    Inv timeval { state with
      server
      backlog := peers
      phase := .handling rest
      accepted := state.accepted ++
        [(peer, (accept.clientfd, state.server.opened accept.clientfd))] } := by
  have hopened := opened_of_newconnection hserver
  have hfresh : (accept.clientfd, state.server.opened accept.clientfd) ∉
      state.accepted.map Prod.snd := by
    rw [hinv.built]
    exact lt_irrefl _
  refine ⟨?_, ?_, fun conn ↦ ?_, ?_, hinv.timer⟩
  · have hqueue := hinv.queue
    rw [hbacklog] at hqueue
    simpa using hqueue
  · rw [List.map_append, List.map_singleton, List.nodup_append]
    refine ⟨hinv.once, List.nodup_singleton _, ?_⟩
    rintro conn hmem other hother rfl
    rw [List.mem_singleton.mp hother] at hmem
    exact hfresh hmem
  · obtain ⟨fd, index⟩ := conn
    rw [List.map_append, List.mem_append, hinv.built, List.map_singleton, List.mem_singleton,
      hopened]
    dsimp only
    by_cases hfd : fd = accept.clientfd
    · subst hfd
      simp only [Function.update_self, Prod.mk.injEq, true_and]
      omega
    · rw [Function.update_of_ne hfd, Prod.mk.injEq]
      exact ⟨fun h ↦ h.resolve_right fun heq ↦ hfd heq.1, .inl⟩
  · refine hinv.batched.pop hphase rfl fun other hother ↦ ?_
    cases other with
    | listenfd => exact absurd rfl hother
    | timerfd => exact id

theorem Inv.effect {label : Label} (hinv : Inv timeval state)
    (heffect : Effect wakeup threadnum timeout timeval state label next) : Inv timeval next := by
  cases heffect with
  | connect =>
    refine ⟨?_, hinv.once, hinv.built, hinv.batched.keep rfl fun source ↦ ?_, hinv.timer⟩
    · rw [← List.append_assoc, hinv.queue, List.range_succ]
    · cases source <;> simp [ready]
  | expire harmed =>
    refine ⟨hinv.queue, hinv.once, hinv.built, hinv.batched.keep rfl fun source ↦ ?_,
      fun _ ↦ by simp⟩
    cases source <;> simp [ready]
  | stop => exact ⟨hinv.queue, hinv.once, hinv.built, hinv.batched.keep rfl fun _ ↦ id, hinv.timer⟩
  | leave | goOn =>
    exact ⟨hinv.queue, hinv.once, hinv.built, fun _ hphase ↦ (by cases hphase), hinv.timer⟩
  | epollWait hphase hsome hnodup hready =>
    refine ⟨hinv.queue, hinv.once, hinv.built, fun channels hchannels ↦ ?_, hinv.timer⟩
    cases hchannels
    exact ⟨hnodup, hready⟩
  | refuse hphase =>
    exact ⟨hinv.queue, hinv.once, hinv.built, hinv.batched.pop hphase rfl fun _ _ ↦ id, hinv.timer⟩
  | accept hphase hbacklog hserver => exact hinv.accept hphase hbacklog hserver
  | handleTimer hphase hserver =>
    refine ⟨hinv.queue, hinv.once, fun conn ↦ ?_, hinv.batched.pop hphase rfl fun other hother ↦ ?_,
      fun hpositive ↦ ?_⟩
    · rw [hinv.built, opened_of_step (by simp) hserver]
    · cases other with
      | listenfd => exact id
      | timerfd => exact absurd rfl hother
    · simp [Timer.settime, hpositive]
  | server hsub hserver =>
    refine ⟨hinv.queue, hinv.once, fun conn ↦ ?_, hinv.batched.keep rfl fun _ ↦ id, hinv.timer⟩
    rw [hinv.built, opened_of_step ?_ hserver]
    rintro fd this now rfl
    cases hsub

theorem inv_of_reachable (hreach : (system wakeup threadnum timeout timeval).Reachable state) :
    Inv timeval state := by
  refine hreach.invariant (Inv timeval) (fun start hinitial ↦ ?_)
    fun _ _ _ hinv _ hstep ↦ hinv.effect (effect_of_step hstep)
  obtain ⟨hserver, hbacklog, htimer, hphase, -, harrived, haccepted⟩ := hinitial
  refine ⟨?_, ?_, fun conn ↦ ?_, fun channels hchannels ↦ ?_, fun hpositive ↦ ?_⟩
  · rw [haccepted, hbacklog, harrived]
    rfl
  · simp [haccepted]
  · simp [haccepted, hserver.server.opened]
  · rw [hphase] at hchannels
    cases hchannels
    simp
  · simp [htimer, createTimerfd, Timer.settime, hpositive]

/-- A server before `start`. -/
def start (wakeup : EventFds) (threadnum : ℕ) (timeval : ℤ) : State :=
  ⟨InterestList.start wakeup threadnum, [], createTimerfd timeval, .handling [], false, 0, []⟩

theorem start_initial :
    Initial wakeup threadnum timeval (start wakeup threadnum timeval) :=
  ⟨InterestList.start_initial wakeup threadnum, rfl, rfl, rfl, rfl, rfl, rfl⟩

/-! ### Every connection is accepted -/

/-- In every state of a run, which is one between two operations of the server: the connections
accepted and those that wait are all that have arrived, in order. For each connection accepted an
object has been built, one each and no others. Those that have not been deleted are in the map, and
registered with their own loop only. -/
theorem accepted_once (hreach : (system wakeup threadnum timeout timeval).Reachable state) :
    state.accepted.map Prod.fst ++ state.backlog = List.range state.arrived ∧
      (state.accepted.map Prod.snd).Nodup ∧
      (∀ conn, conn ∈ state.accepted.map Prod.snd ↔ conn.2 < state.server.opened conn.1) ∧
      ∀ conn ∈ state.accepted.map Prod.snd, state.server.deleted conn = 0 →
        state.server.connections.get? conn.1 = some conn ∧
          ∀ loop, ((state.server.eps loop).interest conn.1).isSome = true ↔
            loop = loopOf threadnum conn := by
  have hinv := inv_of_reachable hreach
  obtain ⟨-, hregistered⟩ := InterestList.registered_of_reachable (server_reachable hreach)
  refine ⟨hinv.queue, hinv.once, hinv.built, fun conn hmem hzero ↦ ?_⟩
  have hlive : state.server.Live conn := ⟨(hinv.built conn).mp hmem, hzero⟩
  refine ⟨hregistered.mapped conn hlive, fun loop ↦ ⟨fun hentry ↦ ?_, ?_⟩⟩
  · have hnone := EventFds.entry_eq_none (hregistered.foreign conn hlive) loop
    obtain ⟨other, hother, hfd, hown⟩ :=
      hregistered.only loop conn.1 (hnone ▸ Option.isSome_iff_ne_none.mp hentry)
    rw [← hown, hregistered.eq_of_fd hlive hother hfd]
  · rintro rfl
    rw [(hregistered.sound conn hlive).registered]
    rfl

/-- After an `accept` that failed, the first of two peers is accepted. -/
theorem accepted_once_two : ∃ state : State, (system InterestList.hundreds 3 20 5).Reachable state ∧
    state.backlog = [1] ∧ state.accepted.map Prod.fst ++ state.backlog = [0, 1] ∧
      ∀ loop, ((state.server.eps loop).interest 5).isSome = true ↔ loop = 2 := by
  obtain ⟨state, hreach, hbacklog, harrived, haccepted, hdeleted⟩ : ∃ state : State,
      (system InterestList.hundreds 3 20 5).Reachable state ∧ state.backlog = [1] ∧
        state.arrived = 2 ∧ state.accepted = [(0, (5, 0))] ∧ state.server.deleted (5, 0) = 0 :=
    ⟨_, .of_run (.initial start_initial) [.connect, .connect, .test, .epollWait [.listenfd],
      .handleNewconnection none, .test, .epollWait [.listenfd],
      .handleNewconnection (some ⟨5, 1, 0⟩)] rfl, rfl, rfl, rfl, rfl⟩
  obtain ⟨hqueue, -, -, hregistered⟩ := accepted_once hreach
  rw [harrived] at hqueue
  exact ⟨state, hreach, hbacklog, hqueue, (hregistered (5, 0) (by simp [haccepted]) hdeleted).2⟩

/-- There is always a descriptor that is not open. -/
theorem exists_free {server : IdleEviction.State}
    (hregistered : InterestList.Registered wakeup threadnum server) :
    ∃ fd, (∀ earlier, earlier < server.opened fd → ¬ server.Live (fd, earlier)) ∧
      ¬ wakeup.Has threadnum fd := by
  obtain ⟨fd, hfd⟩ := Infinite.exists_notMem_finset
    (server.connections.entries.map Prod.fst ++ (List.range threadnum).map wakeup.fd).toFinset
  rw [List.mem_toFinset, List.mem_append, not_or] at hfd
  refine ⟨fd, fun earlier _ hlive ↦ hfd.1 ?_, ?_⟩
  · obtain ⟨before, after, hsplit⟩ := OrderedMap.exists_split_of_get? (hregistered.mapped _ hlive)
    rw [hsplit]
    simp
  · rintro ⟨loop, hloop, rfl⟩
    exact hfd.2 (List.mem_map_of_mem (List.mem_range.mpr hloop))

/-- The step is one of the thread of the loop. -/
def own : Label → Bool
  | .test | .epollWait _ | .handleNewconnection _ | .handleTimer _ => true
  | .connect | .expire | .stop | .server _ => false

/-- The step makes a descriptor readable. -/
def wakes : Label → Bool
  | .connect | .expire => true
  | _ => false

/-- How many steps the thread still has in a round of the loop, but for handling channels. -/
def round : Phase → ℕ
  | .handling [] => 2
  | .waiting => 1
  | .handling (_ :: _) | .returned => 0

/-- How many steps the loop has before it, when no `accept` fails: three for each connection that
waits, and for a timer that has expired. -/
def ahead (state : State) : ℕ :=
  3 * (state.backlog.length + if state.timer = .expired then 1 else 0) + round state.phase

theorem round_le_two (phase : Phase) : round phase ≤ 2 := by
  unfold round
  split <;> omega

/-- A step of the loop brings it nearer to its rest, and what wakes it takes it further away. -/
theorem ahead_effect {label : Label} (hinv : Inv timeval state)
    (heffect : Effect wakeup threadnum timeout timeval state label next)
    (hsucceeds : label ≠ .handleNewconnection none) :
    ahead next + (own label).toNat ≤ ahead state + 3 * (wakes label).toNat := by
  cases heffect with
  | connect =>
    simp only [ahead, own, wakes, List.length_append, List.length_singleton, Bool.toNat_true,
      Bool.toNat_false]
    omega
  | expire harmed =>
    rw [ahead, ahead, harmed]
    simp only [own, wakes, reduceCtorEq, if_true, if_false, Bool.toNat_true, Bool.toNat_false]
    omega
  | stop | server => simp [ahead, own, wakes]
  | leave hphase | goOn hphase => simp [ahead, own, wakes, hphase, round]
  | @epollWait reported hphase hsome =>
    cases reported with
    | nil => exact absurd rfl hsome
    | cons source rest => simp [ahead, own, wakes, hphase, round]
  | refuse => exact absurd rfl hsucceeds
  | @accept rest _ _ _ _ hphase hbacklog =>
    have hround := round_le_two (.handling rest)
    simp only [ahead, own, wakes, hphase, hbacklog, List.length_cons, Bool.toNat_true,
      Bool.toNat_false]
    omega
  | @handleTimer rest _ _ hphase =>
    have hround := round_le_two (.handling rest)
    obtain ⟨-, hready⟩ := hinv.batched _ hphase
    have hexpired : state.timer = .expired := of_decide_eq_true (hready _ List.mem_cons_self)
    have hsettime : state.timer.read.settime timeval ≠ .expired := by
      rw [hexpired, Timer.read, Timer.settime]
      split_ifs <;> simp
    simp only [ahead, own, wakes, hphase, if_pos hexpired, if_neg hsettime, Bool.toNat_true,
      Bool.toNat_false]
    omega

/-- With a sub-loop, the loop has a step, and one that accepts, unless it has returned or waits with
nothing ready. -/
theorem exists_own (hthreadnum : 0 < threadnum) (hinv : Inv timeval state)
    (hregistered : InterestList.Registered wakeup threadnum state.server) :
    state.phase = .returned ∨
      (∃ label, own label = true ∧ label ≠ .handleNewconnection none ∧
        (step wakeup threadnum timeout timeval state label).isSome = true) ∨
      (state.phase = .waiting ∧ state.backlog = [] ∧ state.timer ≠ .expired) := by
  cases hphase : state.phase with
  | returned => exact .inl rfl
  | waiting =>
    by_cases hready : ∃ source, ready state source = true
    · obtain ⟨source, hsource⟩ := hready
      refine .inr (.inl ⟨.epollWait [source], rfl, by simp, ?_⟩)
      simp [step, hphase, hsource]
    · refine .inr (.inr ⟨rfl, ?_, fun hexpired ↦ hready ⟨.timerfd, decide_eq_true hexpired⟩⟩)
      by_contra hbacklog
      exact hready ⟨.listenfd, by simpa [ready] using hbacklog⟩
  | handling channels =>
    refine .inr (.inl ?_)
    match channels, hphase with
    | [], hphase => exact ⟨.test, rfl, by simp, by simp [step, hphase]⟩
    | .listenfd :: rest, hphase =>
      obtain ⟨fd, hfree, hother⟩ := exists_free hregistered
      obtain ⟨-, hready⟩ := hinv.batched _ hphase
      obtain ⟨peer, peers, hbacklog⟩ : ∃ peer peers, state.backlog = peer :: peers :=
        List.exists_cons_of_ne_nil (by simpa [ready] using hready .listenfd List.mem_cons_self)
      refine ⟨.handleNewconnection (some ⟨fd, 0, 0⟩), rfl, by simp, ?_⟩
      rw [step, hphase]
      dsimp only
      rw [handleNewconnection]
      dsimp only
      rw [hbacklog, Option.isSome_map]
      exact hregistered.isSome_newconnection hthreadnum 0 0 hfree hother
    | .timerfd :: rest, hphase =>
      refine ⟨.handleTimer 0, rfl, by simp, ?_⟩
      simp [step, hphase, handleTimer, InterestList.step, IdleEviction.step,
        IdleEviction.handleTimer_eq]

/-- With a sub-loop, in every run in which no `accept` fails and no `::send` ends the program,
whatever other threads and peers do: the loop makes no more steps than it has before it, and three
for each connection and each expiration of the timer. At the end of the run it has a next step, or
it has returned, or it waits and all connections have been accepted. -/
theorem accepts_all {final : State} {labels : List Label} (hthreadnum : 0 < threadnum)
    (hreach : (system wakeup threadnum timeout timeval).Reachable state)
    (hsucceeds : ∀ label ∈ labels, label ≠ .handleNewconnection none)
    (hrun : (system wakeup threadnum timeout timeval).run state labels = some final) :
    labels.countP own ≤ ahead state + 3 * labels.countP wakes ∧
      ((∃ label, own label = true ∧ label ≠ .handleNewconnection none ∧
          (step wakeup threadnum timeout timeval final label).isSome = true) ∨
        final.phase = .returned ∨
        (final.phase = .waiting ∧ final.accepted.map Prod.fst = List.range final.arrived)) := by
  have hcount := TransitionSystem.countP_add_measure_le own wakes 3 ahead (Inv timeval)
    (fun before label after hinv hlabel hstep ↦ ⟨hinv.effect (effect_of_step hstep),
      ahead_effect hinv (effect_of_step hstep) hlabel⟩)
    hsucceeds (inv_of_reachable hreach) hrun
  have hfinal := hreach.of_run labels hrun
  have hinv := inv_of_reachable hfinal
  obtain ⟨-, hregistered⟩ := InterestList.registered_of_reachable (server_reachable hfinal)
  refine ⟨by omega, ?_⟩
  rcases exists_own hthreadnum hinv hregistered with hreturned | hnext | ⟨hwaiting, hbacklog, -⟩
  · exact .inr (.inl hreturned)
  · exact .inl hnext
  · have hqueue := hinv.queue
    rw [hbacklog, List.append_nil] at hqueue
    exact .inr (.inr ⟨hwaiting, hqueue⟩)

/-- Two peers have connected, and the loop accepts the first of them. -/
theorem accepts_all_first : ∃ final : State, final.accepted.map Prod.fst = [0] ∧
    ((∃ label, own label = true ∧ label ≠ .handleNewconnection none ∧
        (step InterestList.hundreds 3 20 5 final label).isSome = true) ∨ final.phase = .returned ∨
      (final.phase = .waiting ∧ final.accepted.map Prod.fst = List.range final.arrived)) := by
  obtain ⟨state, hreach, final, hrun, haccepted⟩ : ∃ state : State,
      (system InterestList.hundreds 3 20 5).Reachable state ∧
        ∃ final, (system InterestList.hundreds 3 20 5).run state
          [.test, .epollWait [.listenfd], .handleNewconnection (some ⟨5, 1, 0⟩)] = some final ∧
            final.accepted.map Prod.fst = [0] :=
    ⟨_, .of_run (.initial start_initial) [.connect, .connect] rfl, _, rfl, rfl⟩
  exact ⟨final, haccepted, (accepts_all (by decide) hreach (by simp) hrun).2⟩

/-! ### A main loop that is told to stop -/

/-- The step is one of the thread of the loop, or the timer expires. -/
def Unprompted : Label → Prop
  | .test | .epollWait _ | .handleNewconnection _ | .handleTimer _ | .expire => True
  | .connect | .stop | .server _ => False

/-- How many steps the thread has before it at most, once `stop_` is assigned. -/
def distance : Phase → ℕ
  | .returned => 0
  | .handling channels => channels.length + 1
  | .waiting => 4

theorem length_le_two {channels : List Source} (hnodup : channels.Nodup) :
    channels.length ≤ 2 := by
  have hsub : channels ⊆ [.listenfd, .timerfd] := fun source _ ↦ by cases source <;> simp
  exact (List.subperm_of_subset hnodup hsub).length_le

theorem distance_le (hinv : Inv timeval state) : distance state.phase ≤ 4 := by
  cases hphase : state.phase with
  | returned | waiting => simp [distance]
  | handling channels =>
    have hlength := length_le_two (hinv.batched channels hphase).1
    simp only [distance]
    omega

/-- Once `stop_` is assigned it stays so, and each step of the thread brings it nearer to its
return. -/
theorem distance_effect {label : Label} (hstop : state.stop = true)
    (heffect : Effect wakeup threadnum timeout timeval state label next) :
    next.stop = true ∧ distance next.phase + (own label).toNat ≤ distance state.phase := by
  cases heffect with
  | connect | expire | stop | server => exact ⟨by simp [hstop], by simp [own]⟩
  | leave hphase => exact ⟨hstop, by simp [own, hphase, distance]⟩
  | goOn _ hgo =>
    rw [hstop] at hgo
    cases hgo
  | epollWait hphase _ hnodup =>
    have hlength := length_le_two hnodup
    refine ⟨hstop, ?_⟩
    simp only [own, hphase, distance, Bool.toNat_true]
    omega
  | refuse hphase | accept hphase | handleTimer hphase =>
    exact ⟨hstop, by simp [own, hphase, distance]⟩

/-- While the timer is not off, somebody has a step until the loop has returned. -/
theorem exists_unprompted (hinv : Inv timeval state) (hpositive : 0 < timeval) :
    state.phase = .returned ∨ ∃ label, Unprompted label ∧
      (step wakeup threadnum timeout timeval state label).isSome = true := by
  cases hphase : state.phase with
  | returned => exact .inl rfl
  | waiting =>
    refine .inr ?_
    cases htimer : state.timer with
    | disarmed => exact absurd htimer (hinv.timer hpositive)
    | armed => exact ⟨.expire, trivial, by simp [step, htimer]⟩
    | expired => exact ⟨.epollWait [.timerfd], trivial, by simp [step, hphase, ready, htimer]⟩
  | handling channels =>
    refine .inr ?_
    match channels, hphase with
    | [], hphase => exact ⟨.test, trivial, by simp [step, hphase]⟩
    | .listenfd :: rest, hphase =>
      exact ⟨.handleNewconnection none, trivial, by simp [step, hphase, handleNewconnection]⟩
    | .timerfd :: rest, hphase =>
      refine ⟨.handleTimer 0, trivial, ?_⟩
      simp [step, hphase, handleTimer, InterestList.step, IdleEviction.step,
        IdleEviction.handleTimer_eq]

end Steps

/-- A main loop that is told to stop makes at most four more steps, whatever other threads and peers
do, and always has the next one, if only when the timer has expired, until it has returned: this
holds, along every run, exactly when the timer is set for a positive time. Otherwise a loop that
waits goes on waiting until a peer connects. -/
theorem stop_returns_iff (wakeup : EventFds) (threadnum : ℕ) (timeout timeval : ℤ) :
    (∀ state, (system wakeup threadnum timeout timeval).Reachable state → state.stop = true →
      ∀ labels final, (system wakeup threadnum timeout timeval).run state labels = some final →
        labels.countP own ≤ 4 ∧ (final.phase = .returned ∨
          ∃ label, Unprompted label ∧
            (step wakeup threadnum timeout timeval final label).isSome = true)) ↔
      0 < timeval := by
  constructor
  · intro hreturns
    by_contra hnot
    let waiting : State := { start wakeup threadnum timeval with phase := .waiting, stop := true }
    have hreach : (system wakeup threadnum timeout timeval).Reachable waiting :=
      .of_run (.initial start_initial) [.test, .stop] rfl
    have hdisarmed : createTimerfd timeval = .disarmed := by
      rw [createTimerfd, Timer.settime, if_neg hnot]
      split_ifs <;> rfl
    rcases (hreturns waiting hreach rfl [] waiting rfl).2 with hphase | ⟨label, hlabel, henabled⟩
    · cases hphase
    · obtain ⟨next, hnext⟩ := Option.isSome_iff_exists.mp henabled
      cases effect_of_step hnext with
      | connect | stop | server => exact hlabel
      | leave hphase | goOn hphase | refuse hphase | accept hphase | handleTimer hphase =>
        cases hphase
      | expire harmed =>
        have hoff : waiting.timer = .disarmed := hdisarmed
        rw [hoff] at harmed
        cases harmed
      | epollWait _ hsome _ hready =>
        obtain ⟨source, hmem⟩ := List.exists_mem_of_ne_nil _ hsome
        have hsource := hready source hmem
        cases source <;> simp [ready, waiting, start, hdisarmed] at hsource
  · intro hpositive state hreach hstop labels final hrun
    have hany : ∀ label ∈ labels, True := fun _ _ ↦ trivial
    have hcount := TransitionSystem.countP_add_measure_le own (fun _ ↦ false) 0
      (fun reached : State ↦ distance reached.phase) (fun reached ↦ reached.stop = true)
      (fun _ _ _ hassigned _ hstep ↦ distance_effect hassigned (effect_of_step hstep))
      hany hstop hrun
    have hle := distance_le (inv_of_reachable hreach)
    refine ⟨by omega, exists_unprompted (inv_of_reachable (hreach.of_run labels hrun)) hpositive⟩

end Reactor.MainLoop
