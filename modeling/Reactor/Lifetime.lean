import Reactor.Epoll
import Reactor.Tpl
import Reactor.Library.TransitionSystem

/-!
# Lifetime of connections

`Connection` objects are held by raw pointers. A `Handledata` task keeps one in the queue and in the
threads of the worker pool, a `send_inloop` task in the task queue of a loop, and the batch of
channels that `Epoll::loop` returned keeps the channels of several. An object is deleted by the
thread of its loop, after `close_client` or `error_client`, or by the main thread, when the timer
evicts it.

`step` is this system for any number of loops and workers. An object is named by its descriptor and
the number of objects built on that descriptor before it, so that names are not used twice. For each
object the state counts the requests it dispatched, and those that are over because the reply went
into the output buffer or `sendmessage` dropped it.

`Safe` says that everything referred to is live. It is lost in exactly the steps that delete an
object with requests that are not over, or, by the timer, an object the loop is about to handle or
is handling (`safe_along_iff`).
-/

set_option autoImplicit false
set_option relaxedAutoImplicit false

namespace Reactor.Lifetime

open Library

/-- A `Connection` object: its descriptor, and the number of earlier objects on it. -/
abbrev Conn := Fd × ℕ

/-- A pointer in the batch of a loop: the channel of a connection, or that of the `eventfd`. -/
inductive Pointer
  | connection (conn : Conn)
  | wakeup
  deriving DecidableEq

/-- What the thread of a loop is doing. -/
inductive Phase
  /-- It is between two handlers, or in `epoll_wait` when its batch is empty. -/
  | between
  /-- It is in the handler of a connection. -/
  | handling (conn : Conn)
  /-- It is in `close_client` or `error_client`, past the assignment of `disconnect_`. -/
  | closing (conn : Conn)
  /-- It is in `handle_wakeup`. -/
  | waking
  deriving DecidableEq

/-- The connection whose member function is running. -/
def Phase.conn? : Phase → Option Conn
  | .handling conn | .closing conn => some conn
  | .between | .waking => none

/-- A loop, with the channels of its batch that have not been handled. -/
structure IoLoop where
  tasks : EventLoop Conn
  batch : List Pointer
  phase : Phase

structure State where
  pool : Tpl Conn
  loops : ℕ → IoLoop
  /-- The number of objects built on each descriptor. -/
  opened : Fd → ℕ
  live : Conn → Bool
  disconnect : Conn → Bool
  /-- The number of requests each connection has dispatched. -/
  dispatched : Conn → ℕ
  /-- The number of its requests that are over. -/
  finished : Conn → ℕ

inductive Label
  | newconnection (fd : Fd)
  | epollWait (loop : ℕ) (reported : List Pointer)
  | handleevent (loop : ℕ)
  | handleMessage (loop : ℕ)
  | return (loop : ℕ)
  | closeClient (loop : ℕ)
  | closeconnection (loop : ℕ)
  | take (worker : ℕ)
  | handledata (worker : ℕ)
  | wakeup (worker : ℕ)
  | runTask (loop : ℕ)
  | release (loop : ℕ)
  | evict (conn : Conn)

/-- Counts one more for a connection. -/
def bump (count : Conn → ℕ) (conn : Conn) : Conn → ℕ :=
  Function.update count conn (count conn + 1)

section Steps

variable (threadnum : ℕ)

/-- The loop of a connection, `sub_eloops[clientfd % threadnum]`. Without sub-loops the source
divides by zero at the first connection; here each descriptor then has a loop of its own, and what
is said of progress asks for `0 < threadnum`. -/
def loopOf (conn : Conn) : ℕ := conn.1 % threadnum

/-- A loop goes on. -/
def setLoop (state : State) (loop : ℕ) (io : IoLoop) : State :=
  { state with loops := Function.update state.loops loop io }

/-- What `epoll_wait` can report to a loop: its live connections, whose descriptors are open, and
its `eventfd` when that can be read. -/
def Reportable (state : State) (loop : ℕ) : Pointer → Prop
  | .connection conn => state.live conn = true ∧ loopOf threadnum conn = loop
  | .wakeup => 0 < (state.loops loop).tasks.eventfd

instance (state : State) (loop : ℕ) : ∀ pointer, Decidable (Reportable threadnum state loop pointer)
  | .connection conn =>
    inferInstanceAs (Decidable (state.live conn = true ∧ loopOf threadnum conn = loop))
  | .wakeup => inferInstanceAs (Decidable (0 < (state.loops loop).tasks.eventfd))

def step (state : State) : Label → Option State
  | .newconnection fd =>
    if ∃ earlier, earlier < state.opened fd ∧ state.live (fd, earlier) = true then none
    else
      some { state with
        opened := Function.update state.opened fd (state.opened fd + 1)
        live := Function.update state.live (fd, state.opened fd) true }
  | .epollWait loop reported =>
    let io := state.loops loop
    if io.phase = .between ∧ io.batch = [] ∧ reported.Nodup ∧
        ∀ pointer ∈ reported, Reportable threadnum state loop pointer then
      some (setLoop state loop { io with batch := reported })
    else none
  | .handleevent loop =>
    let io := state.loops loop
    match io.phase, io.batch with
    | .between, .connection conn :: rest =>
      some (setLoop state loop { io with batch := rest, phase := .handling conn })
    | .between, .wakeup :: rest =>
      io.tasks.handleWakeup.map fun tasks ↦
        setLoop state loop { tasks, batch := rest, phase := .waking }
    | _, _ => none
  | .handleMessage loop =>
    match (state.loops loop).phase with
    | .handling conn =>
      -- With no workers `sendmessage` sends the reply at once, or drops it.
      if state.pool.size = 0 then
        some { state with
          dispatched := bump state.dispatched conn, finished := bump state.finished conn }
      else
        some { state with
          dispatched := bump state.dispatched conn, pool := state.pool.enqueue conn }
    | _ => none
  | .return loop =>
    let io := state.loops loop
    match io.phase with
    | .handling _ => some (setLoop state loop { io with phase := .between })
    | _ => none
  | .closeClient loop =>
    let io := state.loops loop
    match io.phase with
    | .handling conn =>
      some { setLoop state loop { io with phase := .closing conn } with
        disconnect := Function.update state.disconnect conn true }
    | _ => none
  | .closeconnection loop =>
    let io := state.loops loop
    match io.phase with
    | .closing conn =>
      some { setLoop state loop { io with phase := .between } with
        live := Function.update state.live conn false }
    | _ => none
  | .take worker => (state.pool.take worker).map fun pool ↦ { state with pool }
  | .handledata worker =>
    match state.pool.threads[worker]? with
    | some (.running conn) =>
      if state.disconnect conn then
        some { state with
          pool := state.pool.put worker .waiting, finished := bump state.finished conn }
      else
        let loop := loopOf threadnum conn
        ((state.loops loop).tasks.push conn).map fun tasks ↦
          { setLoop state loop { state.loops loop with tasks } with
            pool := state.pool.put worker (.waking loop) }
    | _ => none
  | .wakeup worker =>
    match state.pool.threads[worker]? with
    | some (.waking loop) =>
      let io := state.loops loop
      some { setLoop state loop { io with tasks := io.tasks.wakeup } with
        pool := state.pool.put worker .waiting }
    | _ => none
  | .runTask loop =>
    let io := state.loops loop
    io.tasks.pop.map fun (conn, tasks) ↦
      { setLoop state loop { io with tasks } with finished := bump state.finished conn }
  | .release loop =>
    let io := state.loops loop
    io.tasks.release.map fun tasks ↦ setLoop state loop { io with tasks, phase := .between }
  | .evict conn =>
    if state.live conn then some { state with live := Function.update state.live conn false }
    else none

/-- The server before the first connection. -/
structure Initial (workers : ℕ) (state : State) : Prop where
  pool : state.pool = Tpl.new workers
  loops : state.loops = fun _ ↦ ⟨.new, [], .between⟩
  dispatched : state.dispatched = fun _ ↦ 0
  finished : state.finished = fun _ ↦ 0

/-- The system, for a number of loops and a number of workers. -/
def system (workers : ℕ) : TransitionSystem State Label where
  initial := Initial workers
  step := step threadnum

end Steps

/-! ### References -/

/-- A loop refers to a connection in its task queue, in its batch, or in the handler it runs. -/
def IoLoop.Refers (io : IoLoop) (conn : Conn) : Prop :=
  conn ∈ io.tasks.taskQueue ∨ .connection conn ∈ io.batch ∨ io.phase.conn? = some conn

/-- A connection is referred to by a queued or running task, by a channel of a batch, or by a
handler. -/
def Refers (state : State) (conn : Conn) : Prop :=
  conn ∈ state.pool.q ∨ conn ∈ state.pool.running ∨ ∃ loop, (state.loops loop).Refers conn

/-- Every connection referred to is live. -/
def Safe (state : State) : Prop := ∀ conn, Refers state conn → state.live conn = true

/-- A connection is deleted only when its requests are over, and by the timer moreover only when its
loop is neither about to handle it nor handling it. -/
def DeletesUnused (threadnum : ℕ) (state : State) : Label → Prop
  | .closeconnection loop =>
    ∀ conn ∈ (state.loops loop).phase.conn?, state.dispatched conn = state.finished conn
  | .evict conn =>
    state.dispatched conn = state.finished conn ∧
      .connection conn ∉ (state.loops (loopOf threadnum conn)).batch ∧
      (state.loops (loopOf threadnum conn)).phase.conn? ≠ some conn
  | _ => True

instance (threadnum : ℕ) (state : State) : ∀ label, Decidable (DeletesUnused threadnum state label)
  | .closeconnection loop =>
    inferInstanceAs (Decidable (∀ conn ∈ (state.loops loop).phase.conn?,
      state.dispatched conn = state.finished conn))
  | .evict conn =>
    inferInstanceAs (Decidable (state.dispatched conn = state.finished conn ∧
      .connection conn ∉ (state.loops (loopOf threadnum conn)).batch ∧
      (state.loops (loopOf threadnum conn)).phase.conn? ≠ some conn))
  | .newconnection _ | .epollWait _ _ | .handleevent _ | .handleMessage _ | .return _
  | .closeClient _ | .take _ | .handledata _ | .wakeup _ | .runTask _ | .release _ =>
    .isTrue trivial

/-! ### What a step does -/

/-- A loop refers only to its own connections, to each at most once by its batch and its handler. -/
structure LoopInv (threadnum loop : ℕ) (io : IoLoop) : Prop where
  own : ∀ conn, io.Refers conn → loopOf threadnum conn = loop
  nodup : io.batch.Nodup
  notAgain : ∀ conn, io.phase.conn? = some conn → .connection conn ∉ io.batch

/-- The number of tasks of a connection in the queue of its loop. -/
def queued (threadnum : ℕ) (loops : ℕ → IoLoop) (conn : Conn) : ℕ :=
  (loops (loopOf threadnum conn)).tasks.taskQueue.count conn

/-- What holds in every state of every run: the requests a connection dispatched are those that are
over and those on their way. -/
structure Inv (threadnum : ℕ) (state : State) : Prop where
  loops : ∀ loop, LoopInv threadnum loop (state.loops loop)
  counted : ∀ conn, state.dispatched conn = state.finished conn + state.pool.q.count conn +
    state.pool.running.count conn + queued threadnum state.loops conn

/-- The effect of a step, by what becomes of the references. -/
inductive Effect (threadnum : ℕ) (state : State) : Label → State → Prop
  | newconnection {fd : Fd} :
      Effect threadnum state (.newconnection fd)
        { state with
          opened := Function.update state.opened fd (state.opened fd + 1)
          live := Function.update state.live (fd, state.opened fd) true }
  | loop {label : Label} {loop : ℕ} {io : IoLoop} {disconnect : Conn → Bool}
      (hguard : DeletesUnused threadnum state label)
      (htasks : io.tasks.taskQueue = (state.loops loop).tasks.taskQueue)
      (hinv : LoopInv threadnum loop (state.loops loop) → LoopInv threadnum loop io)
      (hrefers : ∀ conn, io.Refers conn →
        (state.loops loop).Refers conn ∨ state.live conn = true) :
      Effect threadnum state label { setLoop state loop io with disconnect }
  | answer {loop : ℕ} {conn : Conn} (hphase : (state.loops loop).phase = .handling conn) :
      Effect threadnum state (.handleMessage loop)
        { state with
          dispatched := bump state.dispatched conn, finished := bump state.finished conn }
  | enqueue {loop : ℕ} {conn : Conn} (hphase : (state.loops loop).phase = .handling conn) :
      Effect threadnum state (.handleMessage loop)
        { state with
          dispatched := bump state.dispatched conn, pool := state.pool.enqueue conn }
  | take {worker : ℕ} {conn : Conn} {rest : List Conn}
      (hthread : state.pool.threads[worker]? = some .waiting) (hq : state.pool.q = conn :: rest) :
      Effect threadnum state (.take worker)
        { state with pool := { state.pool with q := rest }.put worker (.running conn) }
  | drop {worker : ℕ} {conn : Conn}
      (hthread : state.pool.threads[worker]? = some (.running conn)) :
      Effect threadnum state (.handledata worker)
        { state with pool := state.pool.put worker .waiting, finished := bump state.finished conn }
  | push {worker : ℕ} {conn : Conn} {tasks : EventLoop Conn}
      (hthread : state.pool.threads[worker]? = some (.running conn))
      (htasks : tasks.taskQueue =
        (state.loops (loopOf threadnum conn)).tasks.taskQueue ++ [conn]) :
      Effect threadnum state (.handledata worker)
        { setLoop state (loopOf threadnum conn)
            { state.loops (loopOf threadnum conn) with tasks } with
          pool := state.pool.put worker (.waking (loopOf threadnum conn)) }
  | wakeup {worker loop : ℕ} {tasks : EventLoop Conn}
      (hthread : state.pool.threads[worker]? = some (.waking loop))
      (htasks : tasks.taskQueue = (state.loops loop).tasks.taskQueue) :
      Effect threadnum state (.wakeup worker)
        { setLoop state loop { state.loops loop with tasks } with
          pool := state.pool.put worker .waiting }
  | runTask {loop : ℕ} {conn : Conn} {tasks : EventLoop Conn}
      (htasks : (state.loops loop).tasks.taskQueue = conn :: tasks.taskQueue) :
      Effect threadnum state (.runTask loop)
        { setLoop state loop { state.loops loop with tasks } with
          finished := bump state.finished conn }
  | closeconnection {loop : ℕ} {conn : Conn}
      (hphase : (state.loops loop).phase = .closing conn) :
      Effect threadnum state (.closeconnection loop)
        { setLoop state loop { state.loops loop with phase := .between } with
          live := Function.update state.live conn false }
  | evict {conn : Conn} (hlive : state.live conn = true) :
      Effect threadnum state (.evict conn)
        { state with live := Function.update state.live conn false }

/-- A handler that ends leaves a loop that refers to no more than before. -/
theorem refers_of_between {io : IoLoop} {tasks : EventLoop Conn}
    (htasks : tasks.taskQueue = io.tasks.taskQueue) {conn : Conn}
    (hrefers : IoLoop.Refers ⟨tasks, io.batch, .between⟩ conn) : io.Refers conn := by
  rcases hrefers with htask | hconn | hcurrent
  · exact .inl (htasks ▸ htask)
  · exact .inr (.inl hconn)
  · cases hcurrent

/-- A loop that comes back from a handler keeps its invariant. -/
theorem LoopInv.between {threadnum loop : ℕ} {io : IoLoop} (hinv : LoopInv threadnum loop io)
    {tasks : EventLoop Conn} (htasks : tasks.taskQueue = io.tasks.taskQueue) :
    LoopInv threadnum loop ⟨tasks, io.batch, .between⟩ := by
  refine ⟨fun conn hconn ↦ hinv.own conn (refers_of_between htasks hconn), hinv.nodup, ?_⟩
  intro conn hcurrent
  cases hcurrent

/-- Coming back from a handler is a change of one loop. -/
theorem Effect.between {threadnum : ℕ} {state : State} {label : Label} {loop : ℕ}
    {tasks : EventLoop Conn} (hguard : DeletesUnused threadnum state label)
    (htasks : tasks.taskQueue = (state.loops loop).tasks.taskQueue) :
    Effect threadnum state label
      (setLoop state loop ⟨tasks, (state.loops loop).batch, .between⟩) :=
  .loop hguard htasks (fun hinv ↦ hinv.between htasks)
    fun _ hconn ↦ .inl (refers_of_between htasks hconn)

/-- Taking a pointer off the batch is a change of one loop, when the handler that starts is one of
the connection pointed to, or of none. -/
theorem Effect.pop {threadnum : ℕ} {state : State} {label : Label} {loop : ℕ} {pointer : Pointer}
    {rest : List Pointer} {tasks : EventLoop Conn} {phase : Phase}
    (hguard : DeletesUnused threadnum state label)
    (hbatch : (state.loops loop).batch = pointer :: rest)
    (htasks : tasks.taskQueue = (state.loops loop).tasks.taskQueue)
    (hphase : ∀ conn, phase.conn? = some conn → pointer = .connection conn) :
    Effect threadnum state label (setLoop state loop ⟨tasks, rest, phase⟩) := by
  have hrefers : ∀ conn, IoLoop.Refers ⟨tasks, rest, phase⟩ conn →
      (state.loops loop).Refers conn := by
    rintro conn (htask | hconn | hcurrent)
    · exact .inl (htasks ▸ htask)
    · exact .inr (.inl (hbatch ▸ List.mem_cons_of_mem _ hconn))
    · refine .inr (.inl ?_)
      rw [hbatch, hphase conn hcurrent]
      exact List.mem_cons_self
  refine .loop hguard htasks (fun hinv ↦ ?_) fun conn hconn ↦ .inl (hrefers conn hconn)
  have hnodup := hinv.nodup
  rw [hbatch, List.nodup_cons] at hnodup
  refine ⟨fun conn hconn ↦ hinv.own conn (hrefers conn hconn), hnodup.2, fun conn hcurrent ↦ ?_⟩
  rw [← hphase conn hcurrent]
  exact hnodup.1

/-- Every enabled step has one of the effects. -/
theorem effect_of_step {threadnum : ℕ} {state next : State} {label : Label}
    (hstep : step threadnum state label = some next) : Effect threadnum state label next := by
  cases label with
  | newconnection fd =>
    rw [step] at hstep
    split_ifs at hstep
    cases hstep
    exact .newconnection
  | epollWait loop reported =>
    rw [step] at hstep
    split_ifs at hstep with hready
    cases hstep
    obtain ⟨hphase, hbatch, hnodup, hreported⟩ := hready
    refine .loop trivial rfl (fun hinv ↦ ⟨?_, hnodup, ?_⟩) ?_
    · rintro conn (htask | hconn | hcurrent)
      · exact hinv.own conn (.inl htask)
      · exact (hreported _ hconn).2
      · exact hinv.own conn (.inr (.inr hcurrent))
    · intro conn hcurrent
      rw [hphase] at hcurrent
      cases hcurrent
    · rintro conn (htask | hconn | hcurrent)
      · exact .inl (.inl htask)
      · exact .inr (hreported _ hconn).1
      · exact .inl (.inr (.inr hcurrent))
  | handleevent loop =>
    rw [step] at hstep
    split at hstep
    · rename_i conn rest hphase hbatch
      cases hstep
      refine .pop trivial hbatch rfl fun other hcurrent ↦ ?_
      cases hcurrent
      rfl
    · rename_i rest hphase hbatch
      rw [Option.map_eq_some_iff] at hstep
      obtain ⟨tasks, hhandle, rfl⟩ := hstep
      obtain ⟨-, rfl⟩ := EventLoop.handleWakeup_eq_some hhandle
      refine .pop trivial hbatch rfl fun other hcurrent ↦ ?_
      cases hcurrent
    · cases hstep
  | handleMessage loop =>
    rw [step] at hstep
    split at hstep
    · rename_i conn hphase
      split_ifs at hstep
      · cases hstep
        exact .answer hphase
      · cases hstep
        exact .enqueue hphase
    · cases hstep
  | «return» loop =>
    rw [step] at hstep
    split at hstep
    · cases hstep
      exact .between trivial rfl
    · cases hstep
  | closeClient loop =>
    rw [step] at hstep
    split at hstep
    · rename_i conn hphase
      cases hstep
      have hcurrent : (Phase.closing conn).conn? = (state.loops loop).phase.conn? := by
        rw [hphase]
        rfl
      have hrefers : ∀ other,
          IoLoop.Refers { state.loops loop with phase := .closing conn } other →
            (state.loops loop).Refers other := by
        rintro other (htask | hconn | hother)
        · exact .inl htask
        · exact .inr (.inl hconn)
        · exact .inr (.inr (hcurrent.symm.trans hother))
      refine .loop trivial rfl (fun hinv ↦ ?_) fun other hother ↦ .inl (hrefers other hother)
      exact ⟨fun other hother ↦ hinv.own other (hrefers other hother), hinv.nodup,
        fun other hother ↦ hinv.notAgain other (hcurrent.symm.trans hother)⟩
    · cases hstep
  | closeconnection loop =>
    rw [step] at hstep
    split at hstep
    · rename_i conn hphase
      cases hstep
      exact .closeconnection hphase
    · cases hstep
  | take worker =>
    rw [step, Option.map_eq_some_iff] at hstep
    obtain ⟨pool, htake, rfl⟩ := hstep
    obtain ⟨conn, rest, hthread, hq, rfl⟩ := Tpl.take_eq_some htake
    exact .take hthread hq
  | handledata worker =>
    rw [step] at hstep
    split at hstep
    · rename_i conn hthread
      split_ifs at hstep
      · cases hstep
        exact .drop hthread
      · rw [Option.map_eq_some_iff] at hstep
        obtain ⟨tasks, hpush, rfl⟩ := hstep
        obtain ⟨-, rfl⟩ := EventLoop.push_eq_some hpush
        exact .push hthread rfl
    · cases hstep
  | wakeup worker =>
    rw [step] at hstep
    split at hstep
    · rename_i loop hthread
      cases hstep
      exact .wakeup hthread rfl
    · cases hstep
  | runTask loop =>
    rw [step, Option.map_eq_some_iff] at hstep
    obtain ⟨⟨conn, tasks⟩, hpop, rfl⟩ := hstep
    obtain ⟨-, htasks, -⟩ := EventLoop.pop_eq_some hpop
    exact .runTask htasks
  | release loop =>
    rw [step, Option.map_eq_some_iff] at hstep
    obtain ⟨tasks, hrelease, rfl⟩ := hstep
    obtain ⟨-, -, rfl⟩ := EventLoop.release_eq_some hrelease
    exact .between trivial rfl
  | evict conn =>
    rw [step] at hstep
    split_ifs at hstep with hlive
    cases hstep
    exact .evict hlive

/-! ### The invariant -/

theorem bump_apply (count : Conn → ℕ) (conn other : Conn) :
    bump count conn other = count other + [conn].count other := by
  unfold bump
  by_cases hother : other = conn
  · subst hother
    simp
  · rw [Function.update_of_ne hother, List.count_eq_zero_of_not_mem (by simpa using hother),
      Nat.add_zero]

/-- A change of one loop that keeps its invariant keeps that of every loop. -/
theorem loopInv_setLoop {threadnum : ℕ} {state : State} {loop : ℕ} {io : IoLoop}
    (hloops : ∀ other, LoopInv threadnum other (state.loops other))
    (hio : LoopInv threadnum loop io) (other : ℕ) :
    LoopInv threadnum other ((setLoop state loop io).loops other) := by
  by_cases hother : other = loop
  · subst hother
    simpa only [setLoop, Function.update_self] using hio
  · simpa only [setLoop, Function.update_of_ne hother] using hloops other

/-- A change of the tasks of a loop that adds only own tasks keeps its invariant. -/
theorem LoopInv.of_tasks {threadnum loop : ℕ} {io : IoLoop} (hinv : LoopInv threadnum loop io)
    {tasks : EventLoop Conn}
    (htasks : ∀ conn ∈ tasks.taskQueue,
      conn ∈ io.tasks.taskQueue ∨ loopOf threadnum conn = loop) :
    LoopInv threadnum loop { io with tasks } := by
  refine ⟨?_, hinv.nodup, hinv.notAgain⟩
  rintro conn (htask | hbatch | hcurrent)
  · rcases htasks conn htask with hold | hown
    · exact hinv.own conn (.inl hold)
    · exact hown
  · exact hinv.own conn (.inr (.inl hbatch))
  · exact hinv.own conn (.inr (.inr hcurrent))

/-- A change of a loop that keeps its task queue keeps the number of tasks. -/
theorem queued_update {threadnum : ℕ} {loops : ℕ → IoLoop} {loop : ℕ} {io : IoLoop}
    (htasks : io.tasks.taskQueue = (loops loop).tasks.taskQueue) (conn : Conn) :
    queued threadnum (Function.update loops loop io) conn = queued threadnum loops conn := by
  unfold queued
  by_cases hloop : loopOf threadnum conn = loop
  · rw [hloop, Function.update_self, htasks]
  · rw [Function.update_of_ne hloop]

/-- A change of a loop that adds a task of one of its connections. -/
theorem queued_update_cons {threadnum : ℕ} {loops : ℕ → IoLoop} {conn : Conn} {loop : ℕ}
    {io : IoLoop} (hloop : loopOf threadnum conn = loop)
    (htasks : io.tasks.taskQueue.Perm (conn :: (loops loop).tasks.taskQueue)) (other : Conn) :
    queued threadnum (Function.update loops loop io) other =
      queued threadnum loops other + [conn].count other := by
  subst hloop
  unfold queued
  by_cases hother : loopOf threadnum other = loopOf threadnum conn
  · rw [hother, Function.update_self, htasks.count_eq, List.count_cons, List.count_singleton]
  · have hne : conn ≠ other := fun heq ↦ hother (congrArg _ heq.symm)
    rw [Function.update_of_ne hother, List.count_singleton, if_neg (by simpa using hne),
      Nat.add_zero]

/-- A change of a loop that takes a task of one of its connections away. -/
theorem queued_of_update_cons {threadnum : ℕ} {loops : ℕ → IoLoop} {conn : Conn} {loop : ℕ}
    {io : IoLoop} (hloop : loopOf threadnum conn = loop)
    (htasks : (loops loop).tasks.taskQueue = conn :: io.tasks.taskQueue) (other : Conn) :
    queued threadnum loops other =
      queued threadnum (Function.update loops loop io) other + [conn].count other := by
  have hrestore : Function.update (Function.update loops loop io) loop (loops loop) = loops := by
    simp
  have hadd : queued threadnum
      (Function.update (Function.update loops loop io) loop (loops loop)) other =
        queued threadnum (Function.update loops loop io) other + [conn].count other := by
    refine queued_update_cons hloop ?_ other
    rw [Function.update_self, htasks]
  rwa [hrestore] at hadd

/-- Every effect keeps the invariant. -/
theorem Inv.effect {threadnum : ℕ} {state next : State} {label : Label}
    (hinv : Inv threadnum state) (heffect : Effect threadnum state label next) :
    Inv threadnum next := by
  have hcons : ∀ (first conn : Conn) (rest : List Conn),
      (first :: rest).count conn = rest.count conn + [first].count conn := by
    intro first conn rest
    rw [List.count_cons, List.count_singleton]
  cases heffect with
  | newconnection => exact ⟨hinv.loops, hinv.counted⟩
  | loop hguard htasks hkeeps hrefers =>
    refine ⟨loopInv_setLoop hinv.loops (hkeeps (hinv.loops _)), fun conn ↦ ?_⟩
    exact (hinv.counted conn).trans (congrArg _ (queued_update htasks conn).symm)
  | answer hphase =>
    refine ⟨hinv.loops, fun conn ↦ ?_⟩
    have hcount := hinv.counted conn
    simp only [bump_apply]
    omega
  | enqueue hphase =>
    refine ⟨hinv.loops, fun conn ↦ ?_⟩
    have hcount := hinv.counted conn
    simp only [bump_apply, Tpl.q_enqueue, Tpl.running_enqueue, List.count_append]
    omega
  | @take worker conn rest hthread hq =>
    refine ⟨hinv.loops, fun other ↦ ?_⟩
    have hcount := hinv.counted other
    have hrunning : ({ state.pool with q := rest }.put worker (.running conn)).running.Perm
        (conn :: state.pool.running) := Tpl.running_put_running hthread conn
    rw [hq, hcons] at hcount
    simp only [Tpl.q_put, hrunning.count_eq]
    rw [hcons]
    omega
  | @drop worker conn hthread =>
    refine ⟨hinv.loops, fun other ↦ ?_⟩
    have hcount := hinv.counted other
    have hrunning : state.pool.running.Perm
        (conn :: (state.pool.put worker .waiting).running) := Tpl.running_put_done hthread rfl
    rw [hrunning.count_eq, hcons] at hcount
    simp only [bump_apply, Tpl.q_put]
    omega
  | @push worker conn tasks hthread htasks =>
    refine ⟨loopInv_setLoop hinv.loops ?_, fun other ↦ ?_⟩
    · refine (hinv.loops _).of_tasks fun task htask ↦ ?_
      rw [htasks, List.mem_append, List.mem_singleton] at htask
      rcases htask with hold | rfl
      · exact .inl hold
      · exact .inr rfl
    · have hcount := hinv.counted other
      have hrunning : state.pool.running.Perm
          (conn :: (state.pool.put worker (.waking (loopOf threadnum conn))).running) :=
        Tpl.running_put_done hthread rfl
      have hqueue : tasks.taskQueue.Perm
          (conn :: (state.loops (loopOf threadnum conn)).tasks.taskQueue) := by
        rw [htasks]
        exact List.perm_append_singleton _ _
      have hqueued : queued threadnum (Function.update state.loops (loopOf threadnum conn)
          { state.loops (loopOf threadnum conn) with tasks }) other =
            queued threadnum state.loops other + [conn].count other :=
        queued_update_cons rfl hqueue other
      rw [hrunning.count_eq, hcons] at hcount
      simp only [setLoop, Tpl.q_put, hqueued]
      omega
  | @wakeup worker loop tasks hthread htasks =>
    refine ⟨loopInv_setLoop hinv.loops ?_, fun other ↦ ?_⟩
    · exact (hinv.loops loop).of_tasks fun task htask ↦ .inl (htasks ▸ htask)
    · have hcount := hinv.counted other
      have hrunning : state.pool.running.Perm (state.pool.put worker .waiting).running :=
        Tpl.running_put_idle hthread rfl rfl
      have hqueued : queued threadnum (Function.update state.loops loop
          { state.loops loop with tasks }) other = queued threadnum state.loops other :=
        queued_update htasks other
      rw [hrunning.count_eq] at hcount
      simp only [setLoop, Tpl.q_put, hqueued]
      exact hcount
  | @runTask loop conn tasks htasks =>
    refine ⟨loopInv_setLoop hinv.loops ?_, fun other ↦ ?_⟩
    · refine (hinv.loops loop).of_tasks fun task htask ↦ .inl ?_
      rw [htasks]
      exact List.mem_cons_of_mem _ htask
    · have hcount := hinv.counted other
      have hloop : loopOf threadnum conn = loop :=
        (hinv.loops loop).own conn (.inl (htasks ▸ List.mem_cons_self))
      have hqueued : queued threadnum state.loops other = queued threadnum
          (Function.update state.loops loop { state.loops loop with tasks }) other +
            [conn].count other :=
        queued_of_update_cons hloop htasks other
      simp only [hqueued] at hcount
      simp only [setLoop, bump_apply]
      omega
  | @closeconnection loop conn hphase =>
    refine ⟨loopInv_setLoop hinv.loops ((hinv.loops loop).between rfl), fun other ↦ ?_⟩
    have hqueued : queued threadnum (Function.update state.loops loop
        { state.loops loop with phase := .between }) other =
          queued threadnum state.loops other := by
      refine queued_update ?_ other
      rfl
    simp only [setLoop, hqueued]
    exact hinv.counted other
  | evict hlive => exact ⟨hinv.loops, hinv.counted⟩

/-! ### Safety -/

/-- Under the invariant a connection is referred to by the pool or by its own loop. -/
theorem refers_iff {threadnum : ℕ} {state : State} (hinv : Inv threadnum state) (conn : Conn) :
    Refers state conn ↔ conn ∈ state.pool.q ∨ conn ∈ state.pool.running ∨
      (state.loops (loopOf threadnum conn)).Refers conn := by
  refine or_congr_right (or_congr_right ?_)
  constructor
  · rintro ⟨loop, hrefers⟩
    rwa [(hinv.loops loop).own conn hrefers]
  · exact fun hrefers ↦ ⟨_, hrefers⟩

/-- Under the invariant the requests of a connection are over exactly when no task refers to it. -/
theorem finished_iff {threadnum : ℕ} {state : State} (hinv : Inv threadnum state) (conn : Conn) :
    state.dispatched conn = state.finished conn ↔
      conn ∉ state.pool.q ∧ conn ∉ state.pool.running ∧
        conn ∉ (state.loops (loopOf threadnum conn)).tasks.taskQueue := by
  have hcount := hinv.counted conn
  unfold queued at hcount
  rw [← List.count_eq_zero, ← List.count_eq_zero, ← List.count_eq_zero]
  omega

/-- A connection is deleted safely exactly when nothing refers to it any more. -/
theorem safe_delete_iff {state next : State} {conn : Conn} (hsafe : Safe state)
    (hlive : next.live = Function.update state.live conn false)
    (hrefers : ∀ other, Refers next other → Refers state other) :
    Safe next ↔ ¬ Refers next conn := by
  constructor
  · intro hnext hconn
    have hdead := hnext conn hconn
    rw [hlive, Function.update_self] at hdead
    cases hdead
  · intro hunused other hother
    have hne : other ≠ conn := fun heq ↦ hunused (heq ▸ hother)
    rw [hlive, Function.update_of_ne hne]
    exact hsafe other (hrefers other hother)

/-- A step that refers to nothing new but live connections and deletes none is safe. -/
theorem safe_of_refers {state next : State} (hsafe : Safe state)
    (hlive : ∀ conn, state.live conn = true → next.live conn = true)
    (hrefers : ∀ conn, Refers next conn → Refers state conn ∨ state.live conn = true) :
    Safe next := by
  intro conn hconn
  rcases hrefers conn hconn with hold | hnew
  · exact hlive conn (hsafe conn hold)
  · exact hlive conn hnew

/-- What a state with one loop changed refers to. -/
theorem refers_setLoop {state : State} {loop : ℕ} {io : IoLoop} {conn : Conn}
    (hrefers : ∃ other, ((setLoop state loop io).loops other).Refers conn) :
    io.Refers conn ∨ ∃ other, (state.loops other).Refers conn := by
  obtain ⟨other, hother⟩ := hrefers
  by_cases heq : other = loop
  · subst heq
    rw [setLoop] at hother
    exact .inl (by simpa only [Function.update_self] using hother)
  · rw [setLoop] at hother
    exact .inr ⟨other, by simpa only [Function.update_of_ne heq] using hother⟩

/-- What a state refers to after one task queue changed. -/
theorem refers_setLoop_tasks {state : State} {loop : ℕ} {tasks : EventLoop Conn} {conn : Conn}
    (hrefers : ∃ other, ((setLoop state loop { state.loops loop with tasks }).loops other).Refers
      conn) :
    conn ∈ tasks.taskQueue ∨ ∃ other, (state.loops other).Refers conn := by
  rcases refers_setLoop hrefers with (htask | hrest) | hold
  · exact .inl htask
  · exact .inr ⟨loop, .inr hrest⟩
  · exact .inr hold

/-- Deleting a connection at the end of a close is safe exactly when its requests are over. -/
theorem safe_closeconnection_iff {threadnum : ℕ} {state : State} {loop : ℕ} {conn : Conn}
    (hinv : Inv threadnum state) (hsafe : Safe state)
    (hphase : (state.loops loop).phase = .closing conn)
    (hnext : Inv threadnum
      { setLoop state loop { state.loops loop with phase := .between } with
        live := Function.update state.live conn false }) :
    Safe { setLoop state loop { state.loops loop with phase := .between } with
      live := Function.update state.live conn false } ↔
        DeletesUnused threadnum state (.closeconnection loop) := by
  have hcurrent : (state.loops loop).phase.conn? = some conn := by
    rw [hphase]
    rfl
  have hloop : loopOf threadnum conn = loop :=
    (hinv.loops loop).own conn (.inr (.inr hcurrent))
  have hbatch := (hinv.loops loop).notAgain conn hcurrent
  have hrefers : ∀ other, IoLoop.Refers { state.loops loop with phase := .between } other →
      (state.loops loop).Refers other := fun other hother ↦ refers_of_between rfl hother
  refine Iff.trans (safe_delete_iff hsafe rfl ?_) ?_
  · rintro other (hq | hrunning | hloops)
    · exact .inl hq
    · exact .inr (.inl hrunning)
    · rcases refers_setLoop hloops with hio | hold
      · exact .inr (.inr ⟨loop, hrefers other hio⟩)
      · exact .inr (.inr hold)
  · have hguard : DeletesUnused threadnum state (.closeconnection loop) ↔
        state.dispatched conn = state.finished conn := by
      simp [DeletesUnused, hcurrent]
    rw [hguard, finished_iff hinv, refers_iff hnext]
    simp only [hloop, setLoop, Function.update_self, IoLoop.Refers, Phase.conn?, hbatch]
    simp

/-- In a safe state every effect keeps safety exactly when it deletes only an unused connection. -/
theorem safe_effect_iff {threadnum : ℕ} {state next : State} {label : Label}
    (hinv : Inv threadnum state) (hsafe : Safe state)
    (heffect : Effect threadnum state label next) :
    Safe next ↔ DeletesUnused threadnum state label := by
  have hnext := hinv.effect heffect
  cases heffect with
  | newconnection =>
    refine iff_of_true (safe_of_refers hsafe ?_ fun conn hconn ↦ .inl hconn) trivial
    intro conn hconn
    simp only [Function.update_apply]
    split_ifs
    · rfl
    · exact hconn
  | loop hguard htasks hkeeps hrefers =>
    refine iff_of_true (safe_of_refers hsafe (fun _ hconn ↦ hconn) ?_) hguard
    rintro conn (hq | hrunning | hloops)
    · exact .inl (.inl hq)
    · exact .inl (.inr (.inl hrunning))
    · rcases refers_setLoop hloops with hio | hold
      · rcases hrefers conn hio with hbefore | hnew
        · exact .inl (.inr (.inr ⟨_, hbefore⟩))
        · exact .inr hnew
      · exact .inl (.inr (.inr hold))
  | answer hphase =>
    exact iff_of_true (safe_of_refers hsafe (fun _ hconn ↦ hconn) fun conn hconn ↦ .inl hconn)
      trivial
  | @enqueue loop conn hphase =>
    refine iff_of_true (safe_of_refers hsafe (fun _ hconn ↦ hconn) ?_) trivial
    rintro other (hq | hrest)
    · rcases List.mem_append.mp hq with hold | hnew
      · exact .inl (.inl hold)
      · obtain rfl := List.mem_singleton.mp hnew
        refine .inl (.inr (.inr ⟨loop, .inr (.inr ?_)⟩))
        rw [hphase]
        rfl
    · exact .inl (.inr hrest)
  | @take worker conn rest hthread hq =>
    have hrunning : ({ state.pool with q := rest }.put worker (.running conn)).running.Perm
        (conn :: state.pool.running) := Tpl.running_put_running hthread conn
    refine iff_of_true (safe_of_refers hsafe (fun _ hconn ↦ hconn) ?_) trivial
    rintro other (hwaiting | hworking | hloops)
    · exact .inl (.inl (hq ▸ List.mem_cons_of_mem _ hwaiting))
    · rcases List.mem_cons.mp (hrunning.mem_iff.mp hworking) with rfl | hold
      · exact .inl (.inl (hq ▸ List.mem_cons_self))
      · exact .inl (.inr (.inl hold))
    · exact .inl (.inr (.inr hloops))
  | @drop worker conn hthread =>
    have hrunning : state.pool.running.Perm
        (conn :: (state.pool.put worker .waiting).running) := Tpl.running_put_done hthread rfl
    refine iff_of_true (safe_of_refers hsafe (fun _ hconn ↦ hconn) ?_) trivial
    rintro other (hq | hworking | hloops)
    · exact .inl (.inl hq)
    · exact .inl (.inr (.inl (hrunning.mem_iff.mpr (List.mem_cons_of_mem _ hworking))))
    · exact .inl (.inr (.inr hloops))
  | @push worker conn tasks hthread htasks =>
    have hrunning : state.pool.running.Perm
        (conn :: (state.pool.put worker (.waking (loopOf threadnum conn))).running) :=
      Tpl.running_put_done hthread rfl
    refine iff_of_true (safe_of_refers hsafe (fun _ hconn ↦ hconn) ?_) trivial
    rintro other (hq | hworking | hloops)
    · exact .inl (.inl hq)
    · exact .inl (.inr (.inl (hrunning.mem_iff.mpr (List.mem_cons_of_mem _ hworking))))
    · rcases refers_setLoop_tasks hloops with htask | hold
      · rw [htasks] at htask
        rcases List.mem_append.mp htask with hbefore | hnew
        · exact .inl (.inr (.inr ⟨_, .inl hbefore⟩))
        · obtain rfl := List.mem_singleton.mp hnew
          exact .inl (.inr (.inl (hrunning.mem_iff.mpr List.mem_cons_self)))
      · exact .inl (.inr (.inr hold))
  | @wakeup worker loop tasks hthread htasks =>
    have hrunning : state.pool.running.Perm (state.pool.put worker .waiting).running :=
      Tpl.running_put_idle hthread rfl rfl
    refine iff_of_true (safe_of_refers hsafe (fun _ hconn ↦ hconn) ?_) trivial
    rintro other (hq | hworking | hloops)
    · exact .inl (.inl hq)
    · exact .inl (.inr (.inl (hrunning.mem_iff.mpr hworking)))
    · rcases refers_setLoop_tasks hloops with htask | hold
      · exact .inl (.inr (.inr ⟨_, .inl (htasks ▸ htask)⟩))
      · exact .inl (.inr (.inr hold))
  | @runTask loop conn tasks htasks =>
    refine iff_of_true (safe_of_refers hsafe (fun _ hconn ↦ hconn) ?_) trivial
    rintro other (hq | hrunning | hloops)
    · exact .inl (.inl hq)
    · exact .inl (.inr (.inl hrunning))
    · rcases refers_setLoop_tasks hloops with htask | hold
      · exact .inl (.inr (.inr ⟨loop, .inl (htasks ▸ List.mem_cons_of_mem _ htask)⟩))
      · exact .inl (.inr (.inr hold))
  | closeconnection hphase => exact safe_closeconnection_iff hinv hsafe hphase hnext
  | @evict conn hlive =>
    refine Iff.trans (safe_delete_iff hsafe rfl fun other hother ↦ hother) ?_
    rw [refers_iff hnext]
    simp only [DeletesUnused, finished_iff hinv, IoLoop.Refers, not_or, and_assoc]

/-! ### Runs -/

section Runs

variable {threadnum workers : ℕ}

/-- The invariant holds before the first connection. -/
theorem Initial.inv {state : State} (hinitial : Initial workers state) :
    Inv threadnum state := by
  refine ⟨fun loop ↦ ?_, fun conn ↦ ?_⟩
  · rw [hinitial.loops]
    refine ⟨?_, List.nodup_nil, fun conn hcurrent ↦ by cases hcurrent⟩
    rintro conn (htask | hbatch | hcurrent)
    · cases htask
    · cases hbatch
    · cases hcurrent
  · rw [hinitial.dispatched, hinitial.finished, hinitial.pool, Tpl.running_new, queued,
      hinitial.loops]
    rfl

/-- Before the first connection nothing is referred to. -/
theorem Initial.safe {state : State} (hinitial : Initial workers state) : Safe state := by
  rintro conn (hq | hrunning | ⟨loop, hloop⟩)
  · rw [hinitial.pool] at hq
    cases hq
  · rw [hinitial.pool, Tpl.running_new] at hrunning
    cases hrunning
  · rw [hinitial.loops] at hloop
    rcases hloop with htask | hbatch | hcurrent
    · cases htask
    · cases hbatch
    · cases hcurrent

/-- In a run every connection referred to is live all along exactly when every step of the run that
deletes a connection deletes one whose requests are over, and that, when the timer evicts it, its
loop is neither about to handle nor handling. -/
theorem safe_along_iff {start final : State} (hinitial : Initial workers start)
    {labels : List Label}
    (hrun : (system threadnum workers).run start labels = some final) :
    (system threadnum workers).HoldsAlong Safe start labels ↔
      (system threadnum workers).GuardedRun (DeletesUnused threadnum) start labels :=
  TransitionSystem.holdsAlong_iff_guardedRun (Inv threadnum) Safe
    (fun _ _ _ hinv hstep ↦ hinv.effect (effect_of_step hstep))
    (fun _ _ _ hinv hsafe hstep ↦ safe_effect_iff hinv hsafe (effect_of_step hstep))
    labels start final hinitial.inv hinitial.safe hrun

/-- The server before the first connection. -/
def start (workers : ℕ) : State where
  pool := .new workers
  loops := fun _ ↦ ⟨.new, [], .between⟩
  opened := fun _ ↦ 0
  live := fun _ ↦ false
  disconnect := fun _ ↦ false
  dispatched := fun _ ↦ 0
  finished := fun _ ↦ 0

theorem start_initial (workers : ℕ) : Initial workers (start workers) := ⟨rfl, rfl, rfl, rfl⟩

/-- A request is answered before its connection is closed. -/
theorem safe_answered :
    let labels : List Label :=
      [.newconnection 4, .epollWait 0 [.connection (4, 0)], .handleevent 0, .handleMessage 0,
        .return 0, .take 0, .handledata 0, .wakeup 0, .epollWait 0 [.wakeup, .connection (4, 0)],
        .handleevent 0, .runTask 0, .release 0, .handleevent 0, .closeClient 0, .closeconnection 0]
    (system 2 1).HoldsAlong Safe (start 1) labels := by
  intro labels
  have hrun : ∃ final, (system 2 1).run (start 1) labels = some final := ⟨_, rfl⟩
  obtain ⟨final, hfinal⟩ := hrun
  exact (safe_along_iff (start_initial 1) hfinal).mpr (by decide)

/-- A peer that closes while its request is queued leaves a task on a deleted connection. -/
theorem not_safe_closed :
    ¬ ∀ state, (system 2 1).Reachable state → Safe state := by
  intro hsafe
  have hreach : ∃ state, (system 2 1).Reachable state ∧ state.pool.q = [(4, 0)] ∧
      state.live (4, 0) = false :=
    ⟨_, .of_run (.initial (start_initial 1))
      [.newconnection 4, .epollWait 0 [.connection (4, 0)], .handleevent 0, .handleMessage 0,
        .closeClient 0, .closeconnection 0] rfl, rfl, rfl⟩
  obtain ⟨state, hstate, hqueue, hdead⟩ := hreach
  have hlive := hsafe state hstate (4, 0) (.inl (hqueue ▸ List.mem_cons_self))
  rw [hdead] at hlive
  cases hlive

end Runs

end Reactor.Lifetime
