import Reactor.PendingInput

/-!
# The service with workers

The whole server with worker threads, and its peers: any number of sub-loops, each a `PendingInput`,
the worker pool with its queue, and the task queues of the loops. A handler that has read gives the
messages it has found to the pool one by one (`handleMessage`); a worker takes one, frames the reply
and pushes it to the loop of the connection, and writes the `eventfd` of the loop; `handle_wakeup`,
which holds the mutex of the task queue until the queue is empty, is one step. The main thread sets
the callbacks of new connections; that it does so for one loop at a time is not needed. The
connections stay open, as in `ReplyPipeline`, so that the timer evicts none, and there is at least
one worker; `EchoService` is the case without.

`Effect` says once what an undisturbed step can do, seen from between reading and sending: which
messages a handler finds, and what goes into and out of the output buffers (`effect_of_step`).
`Loops` says which step of which sub-loop it is (`loops_of_step`). `Inv` is kept by every effect:
the connections are served, and what a loop has dispatched was given to the pool or is going to
be.
-/

set_option autoImplicit false
set_option relaxedAutoImplicit false

namespace Reactor.WorkerService

open Library Buffer Connection
open ReplyPipeline (Job Reply Request)
open EdgeTriggering (Circumstances Pointer)

structure State where
  loops : ℕ → PendingInput.State
  /-- The messages each loop has found and not yet given to the pool, with their connections. -/
  found : ℕ → List (Fd × Bytes)
  pool : Tpl Job
  queues : ℕ → EventLoop Reply
  /-- The messages of each connection that were given to the pool. -/
  dispatched : Fd → List Bytes
  /-- The bytes of each connection that the kernel has accepted. -/
  sent : Fd → Bytes

inductive Label
  | accept (fd : Fd) (this : ℕ) (now : ℤ) (level : EventMask) (early : Bytes)
  | setcallback (loop : ℕ)
  | arrive (fd : Fd) (bytes : Bytes)
  | raise (fd : Fd) (events : EventMask)
  | epollWait (loop : ℕ) (reported : List Pointer)
  | handleevent (loop : ℕ) (circumstances : Circumstances)
  | handleMessage (loop : ℕ)
  | handleWakeup (loop : ℕ)
  | take (worker : ℕ)
  | handledata (worker : ℕ)
  | wakeup (worker : ℕ)

/-- The argument of `send_inloop` in a task. -/
def task (reply : Reply) : Fd × Bytes := (reply.job.fd, reply.message)

/-- The bytes of a connection that the kernel accepts from its handler. -/
def sends (connection : Connection) (circumstances : Circumstances) : Bytes :=
  match Channel.handleevent connection.clientchannel.revent with
  | .write => connection.taken circumstances.writen
  | _ => []

section Steps

variable (loopOf : Fd → ℕ) (workers : ℕ)

/-- A step of one sub-loop. -/
def loopStep (state : State) (loop : ℕ) (label : PendingInput.Label) : Option State :=
  (PendingInput.step workers (state.loops loop) label).map fun next ↦
    { state with loops := Function.update state.loops loop next }

/-- A handler reads or sends. What it has found it gives to the pool afterwards. -/
def handleevent (state : State) (loop : ℕ) (circumstances : Circumstances) : Option State :=
  match (state.loops loop).loop.current with
  | none => none
  | some (fd, connection) =>
    (loopStep workers state loop (.handleevent circumstances)).bind fun next ↦
      -- Connections stay open.
      if (next.loops loop).loop.connections fd = none then none
      else
        some { next with
          found := Function.update state.found loop
            ((PendingInput.found (state.loops loop).facing circumstances).map fun message ↦
              (fd, message))
          sent := Function.update state.sent fd (state.sent fd ++ sends connection circumstances) }

/-- `Handledata` on a worker. -/
def handledata (state : State) (worker : ℕ) (job : Job) : Option State :=
  match (state.loops (loopOf job.fd)).loop.connections job.fd with
  | none => none
  | some connection =>
    match connection.sendmessage false (ReplyPipeline.handledata job.request.1) with
    | .dropped => some { state with pool := state.pool.put worker .waiting }
    | .inloop _ => none
    | .addtask message =>
      ((state.queues (loopOf job.fd)).push ⟨job, message⟩).map fun queue ↦
        { state with
          queues := Function.update state.queues (loopOf job.fd) queue
          pool := state.pool.put worker (.waking (loopOf job.fd)) }

def step (state : State) : Label → Option State
  | .accept fd this now level early =>
    loopStep workers state (loopOf fd) (.accept fd this now level early)
  | .setcallback loop => loopStep workers state loop (.main .setcallback)
  | .arrive fd bytes => loopStep workers state (loopOf fd) (.arrive fd bytes)
  | .raise fd events => loopStep workers state (loopOf fd) (.raise fd events)
  | .epollWait loop reported =>
    if state.found loop = [] ∧ (.wakeup ∈ reported → 0 < (state.queues loop).eventfd) then
      loopStep workers state loop (.epollWait reported)
    else none
  | .handleevent loop circumstances =>
    if state.found loop = [] then handleevent workers state loop circumstances else none
  | .handleMessage loop =>
    match state.found loop with
    | [] => none
    | (fd, message) :: rest =>
      some { state with
        found := Function.update state.found loop rest
        pool := state.pool.enqueue ⟨fd, message, (state.dispatched fd).length⟩
        dispatched := Function.update state.dispatched fd (state.dispatched fd ++ [message]) }
  | .handleWakeup loop =>
    if state.found loop = [] then
      (state.queues loop).handleWakeup.bind fun queue ↦
        (loopStep workers state loop (.handleWakeup (queue.taskQueue.map task))).map fun next ↦
          { next with
            queues := Function.update state.queues loop
              { queue with taskQueue := [], draining := false } }
    else none
  | .take worker => (state.pool.take worker).map fun pool ↦ { state with pool }
  | .handledata worker =>
    match state.pool.threads[worker]? with
    | some (.running job) => handledata loopOf state worker job
    | _ => none
  | .wakeup worker =>
    match state.pool.threads[worker]? with
    | some (.waking loop) =>
      some { state with
        pool := state.pool.put worker .waiting
        queues := Function.update state.queues loop (state.queues loop).wakeup }
    | _ => none

/-- A sub-loop without connections, on whose descriptors nothing has arrived. -/
structure LoopInitial (state : PendingInput.State) : Prop where
  server : MainThread.Initial state.toState
  unread : state.unread = fun _ ↦ []
  received : state.received = fun _ ↦ []
  dispatched : state.dispatched = fun _ ↦ []

/-- Such loops, and a pool of waiting workers. -/
structure Initial (state : State) : Prop where
  loops : ∀ loop, LoopInitial (state.loops loop)
  found : state.found = fun _ ↦ []
  pool : state.pool = Tpl.new workers
  queues : state.queues = fun _ ↦ EventLoop.new
  dispatched : state.dispatched = fun _ ↦ []
  sent : state.sent = fun _ ↦ []

/-- The server with its peers, for the number of the loop of each descriptor and a number of
workers. -/
def system : TransitionSystem State Label where
  initial := Initial workers
  step := step loopOf workers

end Steps

/-- A step that the main thread does not disturb. -/
def Undisturbed (state : State) : Label → Prop
  | .handleevent loop _ => (state.loops loop).shared = none
  | _ => True

instance (state : State) : ∀ label, Decidable (Undisturbed state label)
  | .handleevent loop _ => inferInstanceAs (Decidable ((state.loops loop).shared = none))
  | .accept _ _ _ _ _ | .setcallback _ | .arrive _ _ | .raise _ _ | .epollWait _ _
  | .handleMessage _ | .handleWakeup _ | .take _ | .handledata _ | .wakeup _ => .isTrue trivial

/-! ### What a step of a sub-loop does -/

/-- The output buffer of a descriptor, empty when there is no connection. -/
def outputOf (loop : EdgeTriggering.State) (fd : Fd) : Bytes :=
  match loop.connections fd with
  | none => []
  | some connection => connection.outputbuffer.buf

/-- Output buffers after a change of one connection. -/
theorem outputOf_put (loop : EdgeTriggering.State) (fd : Fd) (connection : Connection)
    (ep : Epoll) : outputOf (loop.put fd (some connection) ep) =
      Function.update (outputOf loop) fd connection.outputbuffer.buf := by
  funext other
  by_cases hother : other = fd
  · subst hother
    simp only [outputOf, EdgeTriggering.State.put, Function.update_self]
  · simp only [outputOf, EdgeTriggering.State.put, Function.update_of_ne hother]

theorem outputOf_of_some {loop : EdgeTriggering.State} {fd : Fd} {connection : Connection}
    (hconnection : loop.connections fd = some connection) :
    outputOf loop fd = connection.outputbuffer.buf := by
  simp only [outputOf, hconnection]

/-- A change of one connection keeps which there are. -/
theorem isSome_put {loop : EdgeTriggering.State} {fd : Fd} {connection after : Connection}
    (hconnection : loop.connections fd = some connection) (ep : Epoll) (other : Fd) :
    ((loop.put fd (some after) ep).connections other).isSome =
      (loop.connections other).isSome := by
  by_cases hother : other = fd
  · subst hother
    simp only [EdgeTriggering.State.put, Function.update_self, hconnection, Option.isSome_some]
  · simp only [EdgeTriggering.State.put, Function.update_of_ne hother]

/-- Reports change no output buffer. -/
theorem report_spec (reported : List Pointer) : ∀ loop : EdgeTriggering.State,
    (∀ fd, ((EdgeTriggering.report loop reported).connections fd).isSome =
      (loop.connections fd).isSome) ∧
        outputOf (EdgeTriggering.report loop reported) = outputOf loop := by
  induction reported with
  | nil => exact fun loop ↦ ⟨fun _ ↦ rfl, rfl⟩
  | cons pointer rest ih =>
    intro loop
    cases pointer with
    | wakeup => exact ih _
    | connection fd =>
      rw [EdgeTriggering.report]
      split
      · exact ih loop
      · rename_i connection hconnection
        have hput : ∀ batch : List Pointer, ∀ (revent : EventMask) (ep : Epoll),
            let taken := { loop.put fd (some { connection with
              clientchannel := connection.clientchannel.setrevents revent }) ep with batch }
            (∀ other, (taken.connections other).isSome = (loop.connections other).isSome) ∧
              outputOf taken = outputOf loop := by
          intro batch revent ep
          refine ⟨isSome_put hconnection ep, ?_⟩
          refine (outputOf_put loop fd _ ep).trans ?_
          exact Function.update_eq_self_iff.mpr (outputOf_of_some hconnection).symm
        dsimp only
        split_ifs
        · obtain ⟨hlive, houtput⟩ := ih (loop.put fd (some { connection with
            clientchannel := connection.clientchannel.setrevents (loop.ep.report fd) })
              (loop.ep.take fd))
          obtain ⟨hliveTaken, houtputTaken⟩ := hput loop.batch (loop.ep.report fd) (loop.ep.take fd)
          exact ⟨fun other ↦ (hlive other).trans (hliveTaken other), houtput.trans houtputTaken⟩
        · obtain ⟨hlive, houtput⟩ := ih { loop.put fd (some { connection with
            clientchannel := connection.clientchannel.setrevents (loop.ep.report fd) })
              (loop.ep.take fd) with batch := loop.batch ++ [.connection fd] }
          obtain ⟨hliveTaken, houtputTaken⟩ :=
            hput (loop.batch ++ [.connection fd]) (loop.ep.report fd) (loop.ep.take fd)
          exact ⟨fun other ↦ (hlive other).trans (hliveTaken other), houtput.trans houtputTaken⟩

/-- The messages of some tasks for one connection, one after the other. -/
def replies (fd : Fd) (tasks : List Reply) : Bytes :=
  (tasks.filter fun reply ↦ reply.job.fd = fd).flatMap Reply.message

theorem replies_cons (fd : Fd) (reply : Reply) (rest : List Reply) :
    replies fd (reply :: rest) =
      (if reply.job.fd = fd then reply.message else []) ++ replies fd rest := by
  by_cases hfd : reply.job.fd = fd
  · rw [if_pos hfd, replies, List.filter_cons_of_pos (by simpa using hfd), List.flatMap_cons,
      replies]
  · rw [if_neg hfd, replies, List.filter_cons_of_neg (by simpa using hfd), List.nil_append, replies]

/-- Running tasks appends their messages to the output buffers. -/
theorem sendAll_spec {tasks : List Reply} : ∀ {loop after : EdgeTriggering.State},
    (∀ fd connection, loop.connections fd = some connection →
      EdgeTriggering.Sound loop.ep fd connection) →
        (tasks.map task).foldlM EdgeTriggering.sendInloop loop = some after →
          (∀ fd, (after.connections fd).isSome = (loop.connections fd).isSome) ∧
            ∀ fd, outputOf after fd = outputOf loop fd ++ replies fd tasks := by
  induction tasks with
  | nil =>
    intro loop after hsound hsend
    cases hsend
    exact ⟨fun _ ↦ rfl, fun _ ↦ (List.append_nil _).symm⟩
  | cons reply rest ih =>
    intro loop after hsound hsend
    rw [List.map_cons, List.foldlM_cons, Option.bind_eq_bind, Option.bind_eq_some_iff] at hsend
    obtain ⟨middle, hfirst, hrest⟩ := hsend
    cases hconnection : loop.connections reply.job.fd with
    | none =>
      rw [task, EdgeTriggering.sendInloop, hconnection] at hfirst
      cases hfirst
    | some connection =>
      obtain ⟨next, ep, rfl, hgrows⟩ :=
        PendingInput.sendInloop_grows hconnection (hsound _ _ hconnection) hfirst
      have hnext : ∀ fd found, (loop.put reply.job.fd (some next) ep).connections fd = some found →
          EdgeTriggering.Sound ep fd found := by
        intro fd found hfound
        by_cases hfd : fd = reply.job.fd
        · subst hfd
          simp only [EdgeTriggering.State.put, Function.update_self] at hfound
          cases hfound
          exact hgrows.sound
        · simp only [EdgeTriggering.State.put, Function.update_of_ne hfd] at hfound
          have hbefore := hsound fd found hfound
          exact { hbefore with
            registered := (hgrows.same.interest fd hfd).trans hbefore.registered }
      obtain ⟨hlive, houtput⟩ := ih hnext hrest
      refine ⟨fun fd ↦ (hlive fd).trans (isSome_put hconnection ep fd), fun fd ↦ ?_⟩
      rw [houtput fd, replies_cons, outputOf_put]
      by_cases hfd : reply.job.fd = fd
      · subst hfd
        rw [if_pos rfl, Function.update_self, hgrows.outputbuffer, outputOf_of_some hconnection,
          List.append_assoc]
      · rw [if_neg hfd, Function.update_of_ne (Ne.symm hfd), List.nil_append]

/-- A step of a sub-loop that adds nothing to any output buffer and dispatches nothing. It may
accept a connection of its own. -/
structure Unchanged (loopOf : Fd → ℕ) (loop : ℕ) (before after : PendingInput.State) : Prop where
  live : ∀ fd, (after.loop.connections fd).isSome = true →
    (before.loop.connections fd).isSome = true ∨ loopOf fd = loop
  keeps : ∀ fd, (before.loop.connections fd).isSome = true →
    (after.loop.connections fd).isSome = true
  output : outputOf after.loop = outputOf before.loop
  dispatched : after.dispatched = before.dispatched

section Effects

variable {loopOf : Fd → ℕ} {workers loop : ℕ} {before after : PendingInput.State}

/-- A step of a loop that handles nothing. What it accepts is its own. -/
def Plain (loopOf : Fd → ℕ) (loop : ℕ) : PendingInput.Label → Prop
  | .accept fd _ _ _ _ => loopOf fd = loop
  | .arrive _ _ | .raise _ _ | .epollWait _ | .main .setcallback => True
  | .handleevent _ | .handleWakeup _ | .main _ => False

/-- It is not disturbed. -/
theorem Plain.undisturbed {label : PendingInput.Label} (hplain : Plain loopOf loop label) :
    PendingInput.Undisturbed before label := by
  cases label with
  | handleevent => exact hplain.elim
  | main action =>
    cases action with
    | evict => exact hplain.elim
    | _ => trivial
  | _ => trivial

theorem unchanged_of_step {label : PendingInput.Label}
    (hfresh : ∀ fd, before.loop.connections fd = none → before.dispatched fd = [])
    (hplain : Plain loopOf loop label)
    (hstep : PendingInput.step workers before label = some after) :
    Unchanged loopOf loop before after := by
  obtain ⟨⟨next, main⟩, streams, hmoves, hstreams, rfl⟩ :=
    PendingInput.moves_of_step hplain.undisturbed hstep
  cases label with
  | handleevent | handleWakeup => exact hplain.elim
  | main action =>
    cases hstreams
    cases hmoves with
    | evict => exact hplain.elim
    | stay => exact ⟨fun _ ↦ .inl, fun _ ↦ id, rfl, rfl⟩
  | accept fd this now level early =>
    cases hmoves with
    | step hloop =>
      rw [EdgeTriggering.step, Option.ite_none_right_eq_some] at hloop
      rw [PendingInput.streams, Option.ite_none_right_eq_some] at hstreams
      obtain ⟨⟨hnone, -⟩, hloop⟩ := hloop
      obtain ⟨-, hstreams⟩ := hstreams
      cases hloop
      cases hstreams
      refine ⟨fun other hother ↦ ?_, fun other hother ↦ ?_, ?_, ?_⟩
      · by_cases hfd : other = fd
        · exact .inr (hfd ▸ hplain)
        · simp only [Function.update_of_ne hfd] at hother
          exact .inl hother
      · have hfd : other ≠ fd := by
          rintro rfl
          rw [hnone] at hother
          cases hother
        simp only [Function.update_of_ne hfd]
        exact hother
      · refine (outputOf_put _ _ _ _).trans (Function.update_eq_self_iff.mpr ?_)
        simp only [outputOf, hnone]
        rfl
      · exact Function.update_eq_self_iff.mpr (hfresh fd hnone).symm
  | arrive | raise =>
    cases hstreams
    cases hmoves with
    | step hloop =>
      cases hloop
      exact ⟨fun _ ↦ .inl, fun _ ↦ id, rfl, rfl⟩
  | epollWait reported =>
    cases hstreams
    cases hmoves with
    | step hloop =>
      obtain ⟨-, hnext⟩ := Option.ite_none_right_eq_some.mp hloop
      cases hnext
      obtain ⟨hlive, houtput⟩ := report_spec reported before.loop
      exact ⟨fun fd hfd ↦ .inl (hlive fd ▸ hfd), fun fd hfd ↦ (hlive fd).symm ▸ hfd, houtput, rfl⟩

/-- What a handler does that keeps its connection: with workers it reads and finds messages, or it
sends some of the output. -/
inductive Handled (before : PendingInput.State) (fd : Fd) (connection : Connection)
    (circumstances : Circumstances) (after : PendingInput.State) : Prop
  | read (hbranch : Channel.handleevent connection.clientchannel.revent = .read)
      (houtput : outputOf after.loop = outputOf before.loop)
      (hdispatched : after.dispatched = Function.update before.dispatched fd
        (before.dispatched fd ++ PendingInput.found before.loop circumstances))
  | write (hbranch : Channel.handleevent connection.clientchannel.revent = .write)
      (hreturn : ¬ (circumstances.writen < -1 ∨
        connection.outputbuffer.size < circumstances.writen))
      (hnone : PendingInput.found before.loop circumstances = [])
      (houtput : outputOf after.loop = Function.update (outputOf before.loop) fd
        (connection.unsent circumstances.writen))
      (hdispatched : after.dispatched = before.dispatched)

/-- The other branches delete it. -/
theorem handled_of_step {fd : Fd} {connection : Connection} {circumstances : Circumstances}
    (hworkers : 0 < workers) (hinv : PendingInput.Inv before) (hguard : before.shared = none)
    (hcurrent : before.loop.current = some (fd, connection))
    (hstep : PendingInput.step workers before (.handleevent circumstances) = some after)
    (hstays : after.loop.connections fd ≠ none) :
    Handled before fd connection circumstances after ∧
      ∀ other, (after.loop.connections other).isSome =
        (before.loop.connections other).isSome := by
  obtain ⟨⟨next, main⟩, streams, hmoves, hstreams, rfl⟩ :=
    @PendingInput.moves_of_step _ _ _ (.handleevent circumstances) hguard hstep
  cases hmoves with
  | step hloop =>
    rw [EdgeTriggering.step] at hloop
    split at hloop
    · rename_i first rest hbatch
      split at hloop
      · cases hloop
      · rename_i served hserved
        have hsame : (first, served) = (fd, connection) := by
          rw [EdgeTriggering.State.current, hbatch] at hcurrent
          simpa [hserved] using hcurrent
        cases hsame
        have hfound := PendingInput.found.eq_1 before.loop circumstances
        simp only [hcurrent] at hfound
        simp only [PendingInput.streams, hcurrent, MainThread.facing_of_undisturbed hguard]
          at hstreams
        have hsound := (hinv fd connection hserved).sound
        have hhandled := @PendingInput.handled_of_handle workers
          { before.loop with batch := rest } _ _ _ _ hsound hloop
        cases hhandled with
        | deleted hsame =>
          refine absurd ?_ hstays
          exact Function.update_self _ _ _
        | @read drained final events ep hread hcall hdrain hgrows =>
          rw [if_neg (by omega)] at hgrows
          obtain ⟨-, -, houtput⟩ := PendingInput.sound_of_drain hsound hdrain
          simp only [hread] at hstreams
          rw [Option.ite_none_right_eq_some] at hstreams
          obtain ⟨-, hstreams⟩ := hstreams
          cases hstreams
          refine ⟨.read hread ?_ rfl, isSome_put hserved ep⟩
          refine (outputOf_put _ _ _ _).trans (Function.update_eq_self_iff.mpr ?_)
          rw [hgrows.outputbuffer, List.append_nil, houtput]
          exact (outputOf_of_some hserved).symm
        | @write final events ep hwrite hsend =>
          simp only [hwrite] at hstreams hfound
          cases hstreams
          have hreturn : ¬ (circumstances.writen < -1 ∨
              connection.outputbuffer.size < circumstances.writen) := by
            rw [EdgeTriggering.handle] at hloop
            simp only [hwrite] at hloop
            rw [Option.ite_none_left_eq_some] at hloop
            exact hloop.1
          refine ⟨.write hwrite hreturn hfound ?_ rfl, isSome_put hserved ep⟩
          refine (outputOf_put _ _ _ _).trans ?_
          rw [output_of_sendClient hsend]
          rfl
    · cases hloop

/-- What running the tasks of a loop does. -/
theorem wakeup_spec {tasks : List Reply} (hinv : PendingInput.Inv before)
    (hstep : PendingInput.step workers before (.handleWakeup (tasks.map task)) = some after) :
    (∀ fd, (after.loop.connections fd).isSome = (before.loop.connections fd).isSome) ∧
      (∀ fd, outputOf after.loop fd = outputOf before.loop fd ++ replies fd tasks) ∧
        after.dispatched = before.dispatched := by
  obtain ⟨⟨next, main⟩, streams, hmoves, hstreams, rfl⟩ :=
    @PendingInput.moves_of_step _ _ _ (.handleWakeup (tasks.map task)) trivial hstep
  cases hstreams
  cases hmoves with
  | step hloop =>
    rw [EdgeTriggering.step] at hloop
    split at hloop
    · rename_i rest hbatch
      obtain ⟨hlive, houtput⟩ := @sendAll_spec tasks { before.loop with batch := rest } _
        (fun fd connection hconnection ↦ (hinv fd connection hconnection).sound) hloop
      exact ⟨hlive, houtput, rfl⟩
    · cases hloop

end Effects

/-! ### What a step of the server does -/

/-- The output buffer of a descriptor. -/
def State.output (loopOf : Fd → ℕ) (state : State) (fd : Fd) : Bytes :=
  outputOf (state.loops (loopOf fd)).loop fd

/-- The messages of a connection that its loop has found and not yet given to the pool. -/
def State.waiting (loopOf : Fd → ℕ) (state : State) (fd : Fd) : List Bytes :=
  (state.found (loopOf fd)).filterMap fun message ↦
    if message.1 = fd then some message.2 else none

/-- What holds between two steps: each connection is served by its own loop, and what its loop has
dispatched was given to the pool or is going to be. -/
structure Inv (loopOf : Fd → ℕ) (state : State) : Prop where
  served : ∀ loop, PendingInput.Inv (state.loops loop)
  home : ∀ loop fd, ((state.loops loop).loop.connections fd).isSome = true → loopOf fd = loop
  fresh : ∀ loop fd, (state.loops loop).loop.connections fd = none →
    (state.loops loop).dispatched fd = []
  mine : ∀ loop, ∀ message ∈ state.found loop, loopOf message.1 = loop
  free : ∀ loop, (state.queues loop).draining = false
  ledger : ∀ fd, (state.loops (loopOf fd)).dispatched fd =
    state.dispatched fd ++ state.waiting loopOf fd

/-- What a step of one loop that leaves its connections makes of it. -/
structure Kept (before after : PendingInput.State) : Prop where
  served : PendingInput.Inv after
  live : ∀ fd, (after.loop.connections fd).isSome = (before.loop.connections fd).isSome

/-- The effect of a step. -/
inductive Effect (loopOf : Fd → ℕ) (state : State) : Label → State → Prop
  | unchanged {label : Label} {loop : ℕ} {after : PendingInput.State}
      (hserved : PendingInput.Inv after)
      (hunchanged : Unchanged loopOf loop (state.loops loop) after) :
      Effect loopOf state label { state with loops := Function.update state.loops loop after }
  | read {loop : ℕ} {circumstances : Circumstances} {fd : Fd} {after : PendingInput.State}
      {messages : List Bytes} (hlive : ((state.loops loop).loop.connections fd).isSome = true)
      (hkept : Kept (state.loops loop) after) (hnone : state.found loop = [])
      (houtput : outputOf after.loop = outputOf (state.loops loop).loop)
      (hdispatched : after.dispatched = Function.update (state.loops loop).dispatched fd
        ((state.loops loop).dispatched fd ++ messages)) :
      Effect loopOf state (.handleevent loop circumstances)
        { state with
          loops := Function.update state.loops loop after
          found := Function.update state.found loop (messages.map fun message ↦ (fd, message)) }
  | write {loop : ℕ} {circumstances : Circumstances} {fd : Fd} {connection : Connection}
      {after : PendingInput.State}
      (hconnection : (state.loops loop).loop.connections fd = some connection)
      (hkept : Kept (state.loops loop) after)
      (hreturn : ¬ (circumstances.writen < -1 ∨
        connection.outputbuffer.size < circumstances.writen))
      (houtput : outputOf after.loop = Function.update (outputOf (state.loops loop).loop) fd
        (connection.unsent circumstances.writen))
      (hdispatched : after.dispatched = (state.loops loop).dispatched) :
      Effect loopOf state (.handleevent loop circumstances)
        { state with
          loops := Function.update state.loops loop after
          sent := Function.update state.sent fd
            (state.sent fd ++ connection.taken circumstances.writen) }
  | handleMessage {loop : ℕ} {fd : Fd} {message : Bytes} {rest : List (Fd × Bytes)}
      (hfound : state.found loop = (fd, message) :: rest) :
      Effect loopOf state (.handleMessage loop)
        { state with
          found := Function.update state.found loop rest
          pool := state.pool.enqueue ⟨fd, message, (state.dispatched fd).length⟩
          dispatched := Function.update state.dispatched fd (state.dispatched fd ++ [message]) }
  | take {worker : ℕ} {pool : Tpl Job} (htake : state.pool.take worker = some pool) :
      Effect loopOf state (.take worker) { state with pool }
  | handledata {worker : ℕ} {job : Job}
      (hthread : state.pool.threads[worker]? = some (.running job)) :
      Effect loopOf state (.handledata worker)
        { state with
          queues := Function.update state.queues (loopOf job.fd)
            { state.queues (loopOf job.fd) with
              taskQueue := (state.queues (loopOf job.fd)).taskQueue ++
                [⟨job, ReplyPipeline.handledata job.request.1⟩] }
          pool := state.pool.put worker (.waking (loopOf job.fd)) }
  | wakeup {worker loop : ℕ} (hthread : state.pool.threads[worker]? = some (.waking loop)) :
      Effect loopOf state (.wakeup worker)
        { state with
          pool := state.pool.put worker .waiting
          queues := Function.update state.queues loop (state.queues loop).wakeup }
  | handleWakeup {loop : ℕ} {after : PendingInput.State}
      (hreadable : 0 < (state.queues loop).eventfd) (hkept : Kept (state.loops loop) after)
      (houtput : ∀ fd, outputOf after.loop fd = outputOf (state.loops loop).loop fd ++
        replies fd (state.queues loop).taskQueue)
      (hdispatched : after.dispatched = (state.loops loop).dispatched) :
      Effect loopOf state (.handleWakeup loop)
        { state with
          loops := Function.update state.loops loop after
          queues := Function.update state.queues loop ⟨[], 0, false⟩ }

/-- The step of a sub-loop that a step is. -/
def Label.ofLoop (loopOf : Fd → ℕ) (state : State) : Label → Option (ℕ × PendingInput.Label)
  | .accept fd this now level early => some (loopOf fd, .accept fd this now level early)
  | .setcallback loop => some (loop, .main .setcallback)
  | .arrive fd bytes => some (loopOf fd, .arrive fd bytes)
  | .raise fd events => some (loopOf fd, .raise fd events)
  | .epollWait loop reported => some (loop, .epollWait reported)
  | .handleevent loop circumstances => some (loop, .handleevent circumstances)
  | .handleWakeup loop => some (loop, .handleWakeup ((state.queues loop).taskQueue.map task))
  | .handleMessage _ | .take _ | .handledata _ | .wakeup _ => none

section Service

variable {loopOf : Fd → ℕ} {workers : ℕ} {state next : State}

/-- A step of one loop. -/
theorem loopStep_eq_some {loop : ℕ} {label : PendingInput.Label}
    (hstep : loopStep workers state loop label = some next) :
    ∃ after, PendingInput.step workers (state.loops loop) label = some after ∧
      next = { state with loops := Function.update state.loops loop after } := by
  obtain ⟨after, hafter, rfl⟩ := Option.map_eq_some_iff.mp hstep
  exact ⟨after, hafter, rfl⟩

/-- What a step makes of the loops, and that nothing sent is taken back. -/
structure Loops (loopOf : Fd → ℕ) (workers : ℕ) (state : State) (label : Label) (next : State) :
    Prop where
  loops : match label.ofLoop loopOf state with
    | none => next.loops = state.loops
    | some (loop, loopLabel) =>
      ∃ after, PendingInput.step workers (state.loops loop) loopLabel = some after ∧
        next.loops = Function.update state.loops loop after
  sent : ∀ fd, state.sent fd <+: next.sent fd

theorem Loops.of_loopStep {label : Label} {loop : ℕ} {loopLabel : PendingInput.Label}
    {middle : State} (hlabel : label.ofLoop loopOf state = some (loop, loopLabel))
    (hstep : loopStep workers state loop loopLabel = some middle)
    (hloops : next.loops = middle.loops) (hsent : ∀ fd, state.sent fd <+: next.sent fd) :
    Loops loopOf workers state label next := by
  obtain ⟨after, hafter, rfl⟩ := loopStep_eq_some hstep
  refine ⟨?_, hsent⟩
  rw [hlabel]
  exact ⟨after, hafter, hloops⟩

theorem loops_of_step {label : Label} (hstep : step loopOf workers state label = some next) :
    Loops loopOf workers state label next := by
  have hkeeps : ∀ fd, state.sent fd <+: state.sent fd := fun _ ↦ List.prefix_refl _
  cases label with
  | accept | setcallback | arrive | raise =>
    refine .of_loopStep rfl hstep rfl ?_
    obtain ⟨after, -, rfl⟩ := loopStep_eq_some hstep
    exact hkeeps
  | epollWait loop reported =>
    rw [step, Option.ite_none_right_eq_some] at hstep
    refine .of_loopStep rfl hstep.2 rfl ?_
    obtain ⟨after, -, rfl⟩ := loopStep_eq_some hstep.2
    exact hkeeps
  | handleevent loop circumstances =>
    rw [step, Option.ite_none_right_eq_some] at hstep
    obtain ⟨-, hhandle⟩ := hstep
    rw [handleevent] at hhandle
    split at hhandle
    · cases hhandle
    · rename_i fd connection hcurrent
      obtain ⟨middle, hloop, hnext⟩ := Option.bind_eq_some_iff.mp hhandle
      rw [Option.ite_none_left_eq_some] at hnext
      obtain ⟨-, hnext⟩ := hnext
      cases hnext
      refine .of_loopStep rfl hloop rfl fun other ↦ ?_
      obtain ⟨after, -, rfl⟩ := loopStep_eq_some hloop
      by_cases hother : other = fd
      · subst hother
        simp only [Function.update_self]
        exact List.prefix_append _ _
      · simp only [Function.update_of_ne hother]
        exact hkeeps other
  | handleMessage loop =>
    rw [step] at hstep
    split at hstep
    · cases hstep
    · cases hstep
      exact ⟨rfl, hkeeps⟩
  | handleWakeup loop =>
    rw [step, Option.ite_none_right_eq_some] at hstep
    obtain ⟨queue, hqueue, hmap⟩ := Option.bind_eq_some_iff.mp hstep.2
    obtain ⟨middle, hloop, rfl⟩ := Option.map_eq_some_iff.mp hmap
    obtain ⟨-, rfl⟩ := EventLoop.handleWakeup_eq_some hqueue
    refine .of_loopStep rfl hloop rfl ?_
    obtain ⟨after, -, rfl⟩ := loopStep_eq_some hloop
    exact hkeeps
  | take worker =>
    obtain ⟨pool, -, rfl⟩ := Option.map_eq_some_iff.mp hstep
    exact ⟨rfl, hkeeps⟩
  | handledata worker =>
    rw [step] at hstep
    split at hstep
    · rw [handledata] at hstep
      split at hstep
      · cases hstep
      · split at hstep
        · cases hstep
          exact ⟨rfl, hkeeps⟩
        · cases hstep
        · obtain ⟨queue, -, rfl⟩ := Option.map_eq_some_iff.mp hstep
          exact ⟨rfl, hkeeps⟩
    · cases hstep
  | wakeup worker =>
    rw [step] at hstep
    split at hstep
    · cases hstep
      exact ⟨rfl, hkeeps⟩
    · cases hstep

/-- A step of one loop that handles nothing. -/
theorem Inv.unchanged {loop : ℕ} {label : Label} {loopLabel : PendingInput.Label}
    (hinv : Inv loopOf state) (hplain : Plain loopOf loop loopLabel)
    (hstep : loopStep workers state loop loopLabel = some next) :
    Effect loopOf state label next := by
  obtain ⟨after, hafter, rfl⟩ := loopStep_eq_some hstep
  exact .unchanged ((hinv.served loop).step hplain.undisturbed hafter)
    (unchanged_of_step (hinv.fresh loop) hplain hafter)

/-- Every undisturbed step has one of the effects. -/
theorem effect_of_step {label : Label} (hworkers : 0 < workers) (hinv : Inv loopOf state)
    (hguard : Undisturbed state label)
    (hstep : step loopOf workers state label = some next) : Effect loopOf state label next := by
  cases label with
  | accept fd this now level early => exact hinv.unchanged (by exact rfl) hstep
  | setcallback loop => exact hinv.unchanged (by exact trivial) hstep
  | arrive fd bytes => exact hinv.unchanged (by exact trivial) hstep
  | raise fd events => exact hinv.unchanged (by exact trivial) hstep
  | epollWait loop reported =>
    rw [step, Option.ite_none_right_eq_some] at hstep
    exact hinv.unchanged (by exact trivial) hstep.2
  | handleevent loop circumstances =>
    rw [step, Option.ite_none_right_eq_some] at hstep
    obtain ⟨hnone, hhandle⟩ := hstep
    rw [handleevent] at hhandle
    split at hhandle
    · cases hhandle
    · rename_i fd connection hcurrent
      obtain ⟨middle, hloop, hnext⟩ := Option.bind_eq_some_iff.mp hhandle
      obtain ⟨after, hafter, rfl⟩ := loopStep_eq_some hloop
      rw [Option.ite_none_left_eq_some, MainThread.facing_of_undisturbed hguard] at hnext
      obtain ⟨hstays, hnext⟩ := hnext
      simp only [Function.update_self] at hstays
      have hconnection : (state.loops loop).loop.connections fd = some connection := by
        rw [EdgeTriggering.State.current] at hcurrent
        split at hcurrent
        · obtain ⟨found, hfound, heq⟩ := Option.map_eq_some_iff.mp hcurrent
          cases heq
          exact hfound
        · cases hcurrent
      obtain ⟨hhandled, hlive⟩ :=
        handled_of_step hworkers (hinv.served loop) hguard hcurrent hafter hstays
      have hkept : Kept (state.loops loop) after :=
        ⟨@PendingInput.Inv.step _ _ _ (.handleevent circumstances) (hinv.served loop) hguard hafter,
          hlive⟩
      cases hhandled with
      | read hbranch houtput hdispatched =>
        simp only [sends, hbranch, List.append_nil, Function.update_eq_self] at hnext
        cases hnext
        exact .read (by rw [hconnection]; rfl) hkept hnone houtput hdispatched
      | write hbranch hreturn hfound houtput hdispatched =>
        simp only [sends, hbranch, hfound, List.map_nil] at hnext
        have hfoundNone : Function.update state.found loop [] = state.found :=
          Function.update_eq_self_iff.mpr hnone.symm
        rw [hfoundNone] at hnext
        cases hnext
        exact .write hconnection hkept hreturn houtput hdispatched
  | handleMessage loop =>
    rw [step] at hstep
    split at hstep
    · cases hstep
    · rename_i fd message rest hfound
      cases hstep
      exact .handleMessage hfound
  | handleWakeup loop =>
    rw [step, Option.ite_none_right_eq_some] at hstep
    obtain ⟨queue, hqueue, hmap⟩ := Option.bind_eq_some_iff.mp hstep.2
    obtain ⟨middle, hloop, rfl⟩ := Option.map_eq_some_iff.mp hmap
    obtain ⟨after, hafter, rfl⟩ := loopStep_eq_some hloop
    have hreadable := EventLoop.eventfd_of_handleWakeup hqueue
    obtain ⟨-, rfl⟩ := EventLoop.handleWakeup_eq_some hqueue
    obtain ⟨hlive, houtput, hdispatched⟩ := wakeup_spec (hinv.served loop) hafter
    have hserved := @PendingInput.Inv.step _ _ _ (.handleWakeup _) (hinv.served loop) trivial hafter
    exact .handleWakeup hreadable ⟨hserved, hlive⟩ houtput hdispatched
  | take worker =>
    obtain ⟨pool, htake, rfl⟩ := Option.map_eq_some_iff.mp hstep
    exact .take htake
  | handledata worker =>
    rw [step] at hstep
    split at hstep
    · rename_i job hthread
      rw [handledata] at hstep
      split at hstep
      · cases hstep
      · rename_i connection hconnection
        have hconnected := (hinv.served _ _ _ hconnection).sound.connected
        rw [Connection.sendmessage, hconnected] at hstep
        obtain ⟨queue, hpush, rfl⟩ := Option.map_eq_some_iff.mp hstep
        obtain ⟨-, rfl⟩ := EventLoop.push_eq_some hpush
        exact .handledata hthread
    · cases hstep
  | wakeup worker =>
    rw [step] at hstep
    split at hstep
    · rename_i loop hthread
      cases hstep
      exact .wakeup hthread
    · cases hstep

end Service

/-! ### What every step keeps -/

/-- A property of all loops, of which one changes. -/
theorem forall_update {Value : Type*} {values : ℕ → Value} {property : ℕ → Value → Prop}
    (hall : ∀ index, property index (values index)) {changed : ℕ} {value : Value}
    (hchanged : property changed value) (index : ℕ) :
    property index (Function.update values changed value index) := by
  by_cases hindex : index = changed
  · subst hindex
    rw [Function.update_self]
    exact hchanged
  · rw [Function.update_of_ne hindex]
    exact hall index

section Keeping

variable {loopOf : Fd → ℕ} {state next : State}

/-- A step of one loop that keeps its ledger. -/
theorem Inv.put (hinv : Inv loopOf state) {loop : ℕ} {after : PendingInput.State}
    {found : ℕ → List (Fd × Bytes)} (hserved : PendingInput.Inv after)
    (hlive : ∀ fd, (after.loop.connections fd).isSome = true → loopOf fd = loop)
    (hfresh : ∀ fd, after.loop.connections fd = none → after.dispatched fd = [])
    (hmine : ∀ index, ∀ message ∈ found index, loopOf message.1 = index)
    (hothers : ∀ index, index ≠ loop → found index = state.found index)
    (hledger : ∀ fd, loopOf fd = loop → after.dispatched fd = state.dispatched fd ++
      State.waiting loopOf { state with found } fd) (sent : Fd → Bytes) :
    Inv loopOf { state with loops := Function.update state.loops loop after, found, sent } where
  served := forall_update hinv.served hserved
  home := by
    refine @forall_update _ state.loops (fun index kept ↦ ∀ fd,
      (kept.loop.connections fd).isSome = true → loopOf fd = index) hinv.home _ _ hlive
  fresh := by
    refine @forall_update _ state.loops (fun _ kept ↦ ∀ fd,
      kept.loop.connections fd = none → kept.dispatched fd = []) hinv.fresh _ _ hfresh
  mine := hmine
  free := hinv.free
  ledger fd := by
    by_cases hloop : loopOf fd = loop
    · simp only [hloop, Function.update_self]
      exact hledger fd hloop
    · simp only [State.waiting, Function.update_of_ne hloop, hothers _ hloop]
      exact hinv.ledger fd

/-- A loop that accepts nothing. -/
theorem Kept.fresh {before after : PendingInput.State} (hkept : Kept before after)
    (hfresh : ∀ fd, before.loop.connections fd = none → before.dispatched fd = [])
    (hdispatched : ∀ fd, before.loop.connections fd = none →
      after.dispatched fd = before.dispatched fd) (fd : Fd)
    (hnone : after.loop.connections fd = none) : after.dispatched fd = [] := by
  have hbefore : before.loop.connections fd = none := by
    rw [← Option.not_isSome_iff_eq_none, ← hkept.live fd, hnone]
    simp
  rw [hdispatched fd hbefore, hfresh fd hbefore]

/-- A change of one task queue. -/
theorem Inv.withQueue (hinv : Inv loopOf state) {loop : ℕ} {queue : EventLoop Reply}
    (hfree : queue.draining = false) (pool : Tpl Job) :
    Inv loopOf { state with queues := Function.update state.queues loop queue, pool } :=
  { hinv with
    free := @forall_update _ state.queues (fun _ kept ↦ kept.draining = false) hinv.free _ _ hfree }

/-- Every effect keeps the invariant. -/
theorem Inv.effect {label : Label} (hinv : Inv loopOf state)
    (heffect : Effect loopOf state label next) : Inv loopOf next := by
  cases heffect with
  | @unchanged _ loop after hserved hunchanged =>
    refine @Inv.put _ state hinv _ _ state.found hserved (fun fd hfd ↦ ?_) (fun fd hnone ↦ ?_)
      hinv.mine (fun _ _ ↦ rfl) (fun fd hloop ↦ ?_) state.sent
    · exact (hunchanged.live fd hfd).elim (hinv.home loop fd) id
    · rw [hunchanged.dispatched]
      refine hinv.fresh loop fd (Option.not_isSome_iff_eq_none.mp fun hbefore ↦ ?_)
      have hafter := hunchanged.keeps fd hbefore
      rw [hnone] at hafter
      cases hafter
    · rw [hunchanged.dispatched, ← hloop]
      exact hinv.ledger fd
  | @read loop circumstances fd after messages hlive hkept hnone houtput hdispatched =>
    have hhome := hinv.home loop fd hlive
    have hne : ∀ other, (state.loops loop).loop.connections other = none → other ≠ fd := by
      rintro other hother rfl
      rw [hother] at hlive
      cases hlive
    refine hinv.put hkept.served
      (fun other hother ↦ hinv.home loop other (hkept.live other ▸ hother))
      (hkept.fresh (hinv.fresh loop) fun other hother ↦ ?_) ?_ (fun index hindex ↦ ?_)
      (fun other hloop ↦ ?_) state.sent
    · rw [hdispatched, Function.update_of_ne (hne other hother)]
    · refine @forall_update _ state.found (fun index kept ↦ ∀ message ∈ kept,
        loopOf message.1 = index) hinv.mine _ _ fun message hmessage ↦ ?_
      obtain ⟨content, -, rfl⟩ := List.mem_map.mp hmessage
      exact hhome
    · exact Function.update_of_ne hindex _ _
    · have hbefore := hinv.ledger other
      simp only [State.waiting, hloop, hnone, List.filterMap_nil, List.append_nil] at hbefore
      simp only [State.waiting, hloop, Function.update_self, hdispatched, List.filterMap_map]
      by_cases hother : other = fd
      · subst hother
        rw [Function.update_self, hbefore]
        congr 1
        simp
      · rw [Function.update_of_ne hother, hbefore]
        simp [Ne.symm hother]
  | @write loop circumstances fd connection after hconnection hkept hreturn houtput hdispatched =>
    refine @Inv.put _ state hinv _ _ state.found hkept.served
      (fun other hother ↦ hinv.home loop other (hkept.live other ▸ hother))
      (hkept.fresh (hinv.fresh loop) fun other _ ↦ by rw [hdispatched]) hinv.mine (fun _ _ ↦ rfl)
      (fun other hloop ↦ ?_) _
    rw [hdispatched, ← hloop]
    exact hinv.ledger other
  | @handleMessage loop fd message rest hfound =>
    have hhome : loopOf fd = loop := hinv.mine loop _ (hfound ▸ List.mem_cons_self)
    refine { hinv with mine := ?_, ledger := fun other ↦ ?_ }
    · refine @forall_update _ state.found (fun index kept ↦ ∀ message ∈ kept,
        loopOf message.1 = index) hinv.mine _ _ fun other hother ↦ ?_
      exact hinv.mine loop other (hfound ▸ List.mem_cons_of_mem _ hother)
    · have hbefore := hinv.ledger other
      by_cases hloop : loopOf other = loop
      · simp only [State.waiting, hloop, hfound] at hbefore
        simp only [State.waiting, hloop, Function.update_self, hbefore]
        by_cases hother : other = fd
        · subst hother
          simp
        · simp [Function.update_of_ne hother, Ne.symm hother]
      · have hother : other ≠ fd := fun heq ↦ hloop (heq ▸ hhome)
        simp only [State.waiting, Function.update_of_ne hloop, Function.update_of_ne hother]
        exact hbefore
  | take htake => exact { hinv with }
  | @handledata worker job hthread =>
    have hqueue : ∀ tasks : List Reply,
        { state.queues (loopOf job.fd) with taskQueue := tasks }.draining = false :=
      fun _ ↦ hinv.free (loopOf job.fd)
    exact hinv.withQueue (hqueue _) _
  | @wakeup worker loop hthread =>
    have hqueue : (state.queues loop).wakeup.draining = false := hinv.free loop
    exact hinv.withQueue hqueue _
  | @handleWakeup loop after hreadable hkept houtput hdispatched =>
    have hqueue : Inv loopOf
        { state with queues := Function.update state.queues loop ⟨[], 0, false⟩ } :=
      hinv.withQueue rfl state.pool
    refine @Inv.put _ { state with queues := Function.update state.queues loop ⟨[], 0, false⟩ }
      hqueue _ _ state.found hkept.served
      (fun other hother ↦ hinv.home loop other (hkept.live other ▸ hother))
      (hkept.fresh (hinv.fresh loop) fun other _ ↦ by rw [hdispatched]) hinv.mine (fun _ _ ↦ rfl)
      (fun other hloop ↦ ?_) state.sent
    rw [hdispatched, ← hloop]
    exact hinv.ledger other

/-- The invariant holds initially. -/
theorem inv_of_initial {workers : ℕ} (hinitial : Initial workers state) : Inv loopOf state := by
  have hnone : ∀ loop fd, (state.loops loop).loop.connections fd = none := fun loop fd ↦ by
    rw [(hinitial.loops loop).server.loop.connections]
  refine ⟨fun loop ↦ @PendingInput.inv_of_undisturbed workers _
    (.initial (hinitial.loops loop).server), fun loop fd hlive ↦ ?_, fun loop fd _ ↦ ?_, ?_, ?_, ?_⟩
  · rw [hnone] at hlive
    cases hlive
  · rw [(hinitial.loops loop).dispatched]
  · intro loop message hmessage
    rw [hinitial.found] at hmessage
    cases hmessage
  · intro loop
    rw [hinitial.queues]
    rfl
  · intro fd
    simp only [State.waiting, (hinitial.loops (loopOf fd)).dispatched, hinitial.dispatched,
      hinitial.found, List.filterMap_nil, List.append_nil]

end Keeping

end Reactor.WorkerService
