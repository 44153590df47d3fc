import Reactor.Connection
import Reactor.Tpl
import Reactor.Library.Pipeline
import Reactor.Library.TransitionSystem

/-!
# From requests to reply streams

`EchoServer::HandleMessage` gives each request a connection dispatches to the worker pool, or runs
`Handledata` itself when the pool has no threads. `Handledata` frames the reply and hands it to
`Connection::sendmessage`, which on a worker pushes a `send_inloop` task to the loop of the
connection; `handle_wakeup` runs these, and `send_client` offers the output buffer to the kernel.

`step` is this system, for any number of loops, workers and connections, in steps of one access to a
shared queue each. A request is its content with the number of requests its connection dispatched
before it (`Request`), so that the requests of a connection are distinct (`requests`); this number
is in no data the program looks at. The connections stay open and the loops keep running.

The requests of one connection form a `Pipeline`, and every step is a move of it (`Inv.move`). From
this, and from what a step does to the bytes (`Inv`), the stream of replies of a connection, sent
and unsent, is made of whole frames of distinct requests (`replies_whole`). It is in request order
in every run in which no worker hands over a reply while another is still working on an earlier
request of the connection (`replies_ordered`), which holds of every run with at most one worker.
-/

set_option autoImplicit false
set_option relaxedAutoImplicit false

namespace Reactor.ReplyPipeline

open Library NativeInt

/-- The characters of `"reply:"`. -/
def replyHead : Bytes := [114, 101, 112, 108, 121, 58]

/-- The data `Handledata` passes to `sendmessage`. -/
def handledata (message : Bytes) : Bytes :=
  let reply := replyHead ++ message
  encodeInt (intOfSize reply.length) ++ reply

/-- The content of a request, and the number of requests its connection dispatched before it. -/
abbrev Request := Bytes × ℕ

/-- `Handledata` bound to a connection and a message. -/
structure Job where
  fd : Fd
  request : Request
  deriving DecidableEq

/-- `send_inloop` bound to a connection and a message, with the job it answers. -/
structure Reply where
  job : Job
  message : Bytes

structure State where
  pool : Tpl Job
  loops : ℕ → EventLoop Reply
  eps : ℕ → Epoll
  connections : Fd → Connection
  /-- The bytes of each connection the kernel has accepted. -/
  accepted : Fd → Bytes
  /-- The messages each connection has dispatched. -/
  dispatched : Fd → List Bytes
  /-- The requests of each connection whose replies went into its output buffer. -/
  appended : Fd → List Request

inductive Label
  | handleMessage (fd : Fd) (message : Bytes)
  | take (worker : ℕ)
  | handledata (worker : ℕ)
  | wakeup (worker : ℕ)
  | handleWakeup (loop : ℕ)
  | runTask (loop : ℕ)
  | release (loop : ℕ)
  | sendClient (fd : Fd) (writen : ℤ)

/-- A message is counted when it is dispatched. -/
def counted (state : State) (fd : Fd) (message : Bytes) : State :=
  { state with
    dispatched := Function.update state.dispatched fd (state.dispatched fd ++ [message]) }

/-- The job for the next request of a connection. -/
def nextJob (state : State) (fd : Fd) (message : Bytes) : Job :=
  ⟨fd, message, (state.dispatched fd).length⟩

section Steps

variable (loopOf : Fd → ℕ)

/-- `send_inloop` on the thread of its loop. -/
def sendInloop (state : State) (reply : Reply) : Option State :=
  let fd := reply.job.fd
  match (state.connections fd).sendInloop reply.message (state.eps (loopOf fd)) with
  | .error _ => none
  | .ok (connection, ep) =>
    some { state with
      connections := Function.update state.connections fd connection
      eps := Function.update state.eps (loopOf fd) ep
      appended := Function.update state.appended fd (state.appended fd ++ [reply.job.request]) }

/-- The call of `sendmessage` at the end of `Handledata`, and whether it pushed a task. -/
def sendmessage (state : State) (isInloopThread : Bool) (job : Job) : Option (State × Bool) :=
  match (state.connections job.fd).sendmessage isInloopThread (handledata job.request.1) with
  | .dropped => some (state, false)
  | .inloop message => (sendInloop loopOf state ⟨job, message⟩).map fun next ↦ (next, false)
  | .addtask message =>
    ((state.loops (loopOf job.fd)).push ⟨job, message⟩).map fun loop ↦
      ({ state with loops := Function.update state.loops (loopOf job.fd) loop }, true)

def step (state : State) : Label → Option State
  | .handleMessage fd message =>
    if (state.loops (loopOf fd)).draining then none
    else if state.pool.size = 0 then
      (sendmessage loopOf (counted state fd message) true (nextJob state fd message)).map Prod.fst
    else
      some { counted state fd message with pool := state.pool.enqueue (nextJob state fd message) }
  | .take worker => (state.pool.take worker).map fun pool ↦ { state with pool }
  | .handledata worker =>
    match state.pool.threads[worker]? with
    | some (.running job) =>
      (sendmessage loopOf state false job).map fun (next, pushed) ↦
        { next with
          pool := next.pool.put worker (if pushed then .waking (loopOf job.fd) else .waiting) }
    | _ => none
  | .wakeup worker =>
    match state.pool.threads[worker]? with
    | some (.waking loop) =>
      some { state with
        pool := state.pool.put worker .waiting
        loops := Function.update state.loops loop (state.loops loop).wakeup }
    | _ => none
  | .handleWakeup loop =>
    (state.loops loop).handleWakeup.map fun next ↦
      { state with loops := Function.update state.loops loop next }
  | .runTask loop =>
    (state.loops loop).pop.bind fun (reply, next) ↦
      sendInloop loopOf { state with loops := Function.update state.loops loop next } reply
  | .release loop =>
    (state.loops loop).release.map fun next ↦
      { state with loops := Function.update state.loops loop next }
  | .sendClient fd writen =>
    let connection := state.connections fd
    if (state.loops (loopOf fd)).draining ∨ writen < -1 ∨ connection.outputbuffer.size < writen then
      none
    else
      match connection.sendClient writen (state.eps (loopOf fd)) with
      | .error _ => none
      | .ok (next, ep, _) =>
        some { state with
          connections := Function.update state.connections fd next
          eps := Function.update state.eps (loopOf fd) ep
          accepted := Function.update state.accepted fd
            (state.accepted fd ++ connection.taken writen) }

/-- The channel of a connection is that of its descriptor, and its flag is right. -/
def Linked (state : State) : Prop :=
  ∀ fd, (state.connections fd).clientchannel.fd = fd ∧
    (state.connections fd).clientchannel.FlagMirrors (state.eps (loopOf fd))

/-- Before the first request: connections with nothing to send, and a pool of waiting workers. -/
structure Initial (workers : ℕ) (state : State) : Prop where
  pool : state.pool = Tpl.new workers
  loops : state.loops = fun _ ↦ EventLoop.new
  connected : ∀ fd, (state.connections fd).disconnect = false
  output : ∀ fd, (state.connections fd).outputbuffer.buf = []
  linked : Linked loopOf state
  accepted : state.accepted = fun _ ↦ []
  dispatched : state.dispatched = fun _ ↦ []
  appended : state.appended = fun _ ↦ []

/-- The system, for a number of worker threads. -/
def system (workers : ℕ) : TransitionSystem State Label where
  initial := Initial loopOf workers
  step := step loopOf

end Steps

/-! ### The pipeline of a connection -/

/-- The requests a connection has dispatched, in order. -/
def requests (state : State) (fd : Fd) : List Request := (state.dispatched fd).zipIdx

/-- The requests of one connection in a list of jobs. -/
def requestsOf (fd : Fd) (jobs : List Job) : List Request :=
  jobs.filterMap fun job ↦ if job.fd = fd then some job.request else none

@[simp] theorem requestsOf_append (fd : Fd) (first second : List Job) :
    requestsOf fd (first ++ second) = requestsOf fd first ++ requestsOf fd second :=
  List.filterMap_append

theorem requestsOf_cons_self (job : Job) (jobs : List Job) :
    requestsOf job.fd (job :: jobs) = job.request :: requestsOf job.fd jobs := by
  simp [requestsOf]

theorem requestsOf_cons_of_ne {fd : Fd} {job : Job} (hne : job.fd ≠ fd) (jobs : List Job) :
    requestsOf fd (job :: jobs) = requestsOf fd jobs := by
  simp [requestsOf, hne]

theorem requestsOf_perm (fd : Fd) {first second : List Job} (hperm : first.Perm second) :
    (requestsOf fd first).Perm (requestsOf fd second) := hperm.filterMap _

/-- Where the requests of a connection are. -/
def pipeline (loopOf : Fd → ℕ) (state : State) (fd : Fd) : Pipeline Request where
  issued := requests state fd
  waiting := requestsOf fd state.pool.q
  working := requestsOf fd state.pool.running
  ready := requestsOf fd ((state.loops (loopOf fd)).taskQueue.map Reply.job)
  delivered := state.appended fd

/-- The requests of a connection are numbered in order. -/
theorem requests_pairwise (state : State) (fd : Fd) :
    (requests state fd).Pairwise fun first second ↦ first.2 < second.2 := by
  have hnumbers : ((requests state fd).map Prod.snd).Pairwise (· < ·) := by
    rw [requests, List.zipIdx_map_snd]
    exact List.pairwise_lt_range'
  exact List.pairwise_map.mp hnumbers

/-- The requests of a connection are distinct. -/
theorem requests_nodup (state : State) (fd : Fd) : (requests state fd).Nodup := by
  refine (requests_pairwise state fd).imp ?_
  rintro first second hlt rfl
  exact Nat.lt_irrefl _ hlt

/-! ### What a step does -/

/-- A connection and the epoll instance of its loop after a call that serves it. -/
def served (loopOf : Fd → ℕ) (state : State) (fd : Fd) (connection : Connection) (ep : Epoll) :
    State :=
  { state with
    connections := Function.update state.connections fd connection
    eps := Function.update state.eps (loopOf fd) ep }

/-- The state after the reply to a request went into the output buffer. -/
inductive Answers (loopOf : Fd → ℕ) (state : State) (reply : Reply) : State → Prop
  | answered {connection : Connection} {ep : Epoll}
      (hserves : (state.connections reply.job.fd).Serves (state.eps (loopOf reply.job.fd))
        connection ep)
      (houtput : connection.outputbuffer.buf =
        (state.connections reply.job.fd).outputbuffer.buf ++ reply.message) :
      Answers loopOf state reply
        { served loopOf state reply.job.fd connection ep with
          appended := Function.update state.appended reply.job.fd
            (state.appended reply.job.fd ++ [reply.job.request]) }

/-- The effect of a step, by what becomes of a request. -/
inductive Effect (loopOf : Fd → ℕ) (state : State) : Label → State → Prop
  | enqueue (fd : Fd) (message : Bytes) (hsize : state.pool.size ≠ 0) :
      Effect loopOf state (.handleMessage fd message)
        { counted state fd message with pool := state.pool.enqueue (nextJob state fd message) }
  | answer {fd : Fd} {message : Bytes} {next : State} (hsize : state.pool.size = 0)
      (hanswers : Answers loopOf (counted state fd message)
        ⟨nextJob state fd message, handledata message⟩ next) :
      Effect loopOf state (.handleMessage fd message) next
  | take {worker : ℕ} {job : Job} {rest : List Job}
      (hthread : state.pool.threads[worker]? = some .waiting) (hq : state.pool.q = job :: rest) :
      Effect loopOf state (.take worker)
        { state with pool := { state.pool with q := rest }.put worker (.running job) }
  | handOver {worker : ℕ} {job : Job}
      (hthread : state.pool.threads[worker]? = some (.running job)) :
      Effect loopOf state (.handledata worker)
        { state with
          loops := Function.update state.loops (loopOf job.fd)
            { state.loops (loopOf job.fd) with
              taskQueue := (state.loops (loopOf job.fd)).taskQueue ++
                [⟨job, handledata job.request.1⟩] }
          pool := state.pool.put worker (.waking (loopOf job.fd)) }
  | loop {loop : ℕ} {label : Label} {next : EventLoop Reply}
      (hlabel : label = .handleWakeup loop ∨ label = .release loop)
      (htasks : next.taskQueue = (state.loops loop).taskQueue) :
      Effect loopOf state label
        { state with loops := Function.update state.loops loop next }
  | wakeup {worker loop : ℕ} (hthread : state.pool.threads[worker]? = some (.waking loop)) :
      Effect loopOf state (.wakeup worker)
        { state with
          pool := state.pool.put worker .waiting
          loops := Function.update state.loops loop (state.loops loop).wakeup }
  | runTask {loop : ℕ} {reply : Reply} {rest : EventLoop Reply} {next : State}
      (htasks : (state.loops loop).taskQueue = reply :: rest.taskQueue)
      (hanswers : Answers loopOf
        { state with loops := Function.update state.loops loop rest } reply next) :
      Effect loopOf state (.runTask loop) next
  | send {fd : Fd} {writen : ℤ} {connection : Connection} {ep : Epoll}
      (hserves : (state.connections fd).Serves (state.eps (loopOf fd)) connection ep)
      (houtput : connection.outputbuffer.buf = (state.connections fd).unsent writen) :
      Effect loopOf state (.sendClient fd writen)
        { served loopOf state fd connection ep with
          accepted := Function.update state.accepted fd
            (state.accepted fd ++ (state.connections fd).taken writen) }

/-- With right flags `sendInloop` is the answer to its request. -/
theorem answers_of_sendInloop {loopOf : Fd → ℕ} {state next : State} {reply : Reply}
    (hlinked : Linked loopOf state) (hsend : sendInloop loopOf state reply = some next) :
    Answers loopOf state reply next := by
  obtain ⟨connection, ep, hcall, hserves, houtput⟩ :=
    Connection.sendInloop_serves reply.message (hlinked reply.job.fd).2
  rw [sendInloop] at hsend
  rw [hcall] at hsend
  cases hsend
  exact .answered hserves houtput

/-- On the thread of its loop an open connection sends at once. -/
theorem sendmessage_inloop {loopOf : Fd → ℕ} {state : State} {job : Job}
    (hconnected : (state.connections job.fd).disconnect = false) :
    sendmessage loopOf state true job =
      (sendInloop loopOf state ⟨job, handledata job.request.1⟩).map fun next ↦ (next, false) := by
  rw [sendmessage, Connection.sendmessage, hconnected]
  rfl

/-- On another thread an open connection pushes a task. -/
theorem sendmessage_addtask {loopOf : Fd → ℕ} {state : State} {job : Job}
    (hconnected : (state.connections job.fd).disconnect = false) :
    sendmessage loopOf state false job =
      ((state.loops (loopOf job.fd)).push ⟨job, handledata job.request.1⟩).map fun loop ↦
        ({ state with loops := Function.update state.loops (loopOf job.fd) loop }, true) := by
  rw [sendmessage, Connection.sendmessage, hconnected]
  rfl

/-- A task in the queue of a loop: it was pushed by a worker, to the loop of its connection, with
the reply to its request. -/
structure WellFormed (loopOf : Fd → ℕ) (workers loop : ℕ) (reply : Reply) : Prop where
  pushed : workers ≠ 0
  routed : loopOf reply.job.fd = loop
  framed : reply.message = handledata reply.job.request.1

/-- What holds in every state of every run, for a number of workers. -/
structure Inv (loopOf : Fd → ℕ) (workers : ℕ) (state : State) : Prop where
  size : state.pool.size = workers
  queue : state.pool.q ≠ [] → workers ≠ 0
  tasks : ∀ loop, ∀ reply ∈ (state.loops loop).taskQueue, WellFormed loopOf workers loop reply
  connected : ∀ fd, (state.connections fd).disconnect = false
  linked : Linked loopOf state
  stream : ∀ fd, state.accepted fd ++ (state.connections fd).outputbuffer.buf =
    (state.appended fd).flatMap fun request ↦ handledata request.1

/-- Every enabled step of an invariant state has one of the effects. -/
theorem effect_of_step {loopOf : Fd → ℕ} {workers : ℕ} {state next : State} {label : Label}
    (hinv : Inv loopOf workers state) (hstep : step loopOf state label = some next) :
    Effect loopOf state label next := by
  cases label with
  | handleMessage fd message =>
    rw [step] at hstep
    dsimp only at hstep
    split_ifs at hstep with hdraining hsize
    · rw [sendmessage_inloop (hinv.connected fd : _ = false),
        Option.map_map, Option.map_eq_some_iff] at hstep
      obtain ⟨after, hsend, rfl⟩ := hstep
      exact .answer hsize (answers_of_sendInloop hinv.linked hsend)
    · cases hstep
      exact .enqueue fd message hsize
  | take worker =>
    rw [step, Option.map_eq_some_iff] at hstep
    obtain ⟨pool, htake, rfl⟩ := hstep
    obtain ⟨job, rest, hthread, hq, rfl⟩ := Tpl.take_eq_some htake
    exact .take hthread hq
  | handledata worker =>
    rw [step] at hstep
    split at hstep
    · rename_i job hthread
      rw [Option.map_eq_some_iff] at hstep
      obtain ⟨⟨after, pushed⟩, hsend, rfl⟩ := hstep
      rw [sendmessage_addtask (hinv.connected job.fd), Option.map_eq_some_iff] at hsend
      obtain ⟨loop, hpush, hafter⟩ := hsend
      obtain ⟨-, rfl⟩ := EventLoop.push_eq_some hpush
      cases hafter
      exact .handOver hthread
    · cases hstep
  | wakeup worker =>
    rw [step] at hstep
    split at hstep
    · rename_i loop hthread
      cases hstep
      exact .wakeup hthread
    · cases hstep
  | handleWakeup loop =>
    rw [step, Option.map_eq_some_iff] at hstep
    obtain ⟨after, hhandle, rfl⟩ := hstep
    obtain ⟨-, rfl⟩ := EventLoop.handleWakeup_eq_some hhandle
    exact .loop (.inl rfl) rfl
  | runTask loop =>
    rw [step, Option.bind_eq_some_iff] at hstep
    obtain ⟨⟨reply, rest⟩, hpop, hsend⟩ := hstep
    obtain ⟨-, htasks, -⟩ := EventLoop.pop_eq_some hpop
    exact .runTask htasks (answers_of_sendInloop hinv.linked hsend)
  | release loop =>
    rw [step, Option.map_eq_some_iff] at hstep
    obtain ⟨after, hrelease, rfl⟩ := hstep
    obtain ⟨-, -, rfl⟩ := EventLoop.release_eq_some hrelease
    exact .loop (.inr rfl) rfl
  | sendClient fd writen =>
    obtain ⟨connection, ep, events, hcall, hserves, houtput⟩ :=
      Connection.sendClient_serves writen (hinv.linked fd).2
    rw [step] at hstep
    rw [hcall] at hstep
    split_ifs at hstep
    cases hstep
    exact .send hserves houtput

/-- Serving one connection keeps every connection linked. -/
theorem linked_served {loopOf : Fd → ℕ} {state : State} {fd : Fd} {connection : Connection}
    {ep : Epoll} (hlinked : Linked loopOf state)
    (hserves : (state.connections fd).Serves (state.eps (loopOf fd)) connection ep) :
    Linked loopOf (served loopOf state fd connection ep) := by
  intro other
  by_cases hother : other = fd
  · subst hother
    simp only [served, Function.update_self]
    exact ⟨hserves.fd.trans (hlinked other).1, hserves.flag⟩
  · obtain ⟨hfd, hflag⟩ := hlinked other
    simp only [served, Function.update_of_ne hother]
    refine ⟨hfd, ?_⟩
    by_cases hloop : loopOf other = loopOf fd
    · rw [hloop, Function.update_self]
      have hne : other ≠ (state.connections fd).clientchannel.fd := by
        rw [(hlinked fd).1]
        exact hother
      unfold Channel.FlagMirrors at hflag ⊢
      rw [hflag, hfd, hserves.others other hne, hloop]
    · rwa [Function.update_of_ne hloop]

/-- Serving one connection keeps every connection open. -/
theorem connected_served {loopOf : Fd → ℕ} {state : State} {fd : Fd} {connection : Connection}
    {ep : Epoll} (hconnected : ∀ other, (state.connections other).disconnect = false)
    (hserves : (state.connections fd).Serves (state.eps (loopOf fd)) connection ep) (other : Fd) :
    ((served loopOf state fd connection ep).connections other).disconnect = false := by
  by_cases hother : other = fd
  · subst hother
    simp only [served, Function.update_self]
    exact hserves.disconnect.trans (hconnected other)
  · simp only [served, Function.update_of_ne hother]
    exact hconnected other

/-- An answer with the reply to its request keeps the invariant. -/
theorem Inv.answers {loopOf : Fd → ℕ} {workers : ℕ} {state next : State} {reply : Reply}
    (hinv : Inv loopOf workers state) (hframed : reply.message = handledata reply.job.request.1)
    (hanswers : Answers loopOf state reply next) : Inv loopOf workers next := by
  obtain ⟨hserves, houtput⟩ := hanswers
  refine { hinv with
    connected := connected_served hinv.connected hserves
    linked := linked_served hinv.linked hserves
    stream := ?_ }
  intro fd
  by_cases hfd : fd = reply.job.fd
  · subst hfd
    simp only [served, Function.update_self]
    rw [houtput, ← List.append_assoc, hinv.stream, List.flatMap_append, hframed]
    simp
  · simp only [served, Function.update_of_ne hfd]
    exact hinv.stream fd

/-- A change of one loop that adds no ill-formed task keeps the invariant. -/
theorem Inv.update_loop {loopOf : Fd → ℕ} {workers : ℕ} {state : State}
    (hinv : Inv loopOf workers state) {loop : ℕ} {next : EventLoop Reply}
    (htasks : ∀ reply ∈ next.taskQueue,
      reply ∈ (state.loops loop).taskQueue ∨ WellFormed loopOf workers loop reply) :
    Inv loopOf workers { state with loops := Function.update state.loops loop next } := by
  refine { hinv with tasks := ?_ }
  intro other reply hreply
  by_cases hother : other = loop
  · subst hother
    simp only [Function.update_self] at hreply
    rcases htasks reply hreply with hold | hnew
    · exact hinv.tasks other reply hold
    · exact hnew
  · simp only [Function.update_of_ne hother] at hreply
    exact hinv.tasks other reply hreply

/-- A change of the pool that keeps its size and adds nothing to its queue keeps the invariant. -/
theorem Inv.update_pool {loopOf : Fd → ℕ} {workers : ℕ} {state : State}
    (hinv : Inv loopOf workers state) {pool : Tpl Job} (hsize : pool.size = state.pool.size)
    (hq : pool.q ⊆ state.pool.q) : Inv loopOf workers { state with pool } := by
  refine { hinv with size := hsize.trans hinv.size, queue := ?_ }
  intro hne
  obtain ⟨job, hjob⟩ := List.exists_mem_of_ne_nil _ hne
  exact hinv.queue (List.ne_nil_of_mem (hq hjob))

/-- Every effect keeps the invariant. -/
theorem Inv.effect {loopOf : Fd → ℕ} {workers : ℕ} {state next : State} {label : Label}
    (hinv : Inv loopOf workers state) (heffect : Effect loopOf state label next) :
    Inv loopOf workers next := by
  cases heffect with
  | enqueue fd message hsize =>
    exact { hinv with queue := fun _ ↦ hinv.size ▸ hsize }
  | @answer fd message next hsize hanswers =>
    have hcounted : Inv loopOf workers (counted state fd message) := { hinv with }
    exact hcounted.answers rfl hanswers
  | @take worker job rest hthread hq =>
    refine hinv.update_pool (Tpl.size_put _ _ _) ?_
    rw [hq]
    exact List.subset_cons_self job rest
  | @handOver worker job hthread =>
    have hpool : Inv loopOf workers
        { state with pool := state.pool.put worker (.waking (loopOf job.fd)) } :=
      hinv.update_pool (Tpl.size_put _ _ _) (List.Subset.refl _)
    refine hpool.update_loop fun reply hreply ↦ ?_
    rcases List.mem_append.mp hreply with hold | hnew
    · exact .inl hold
    · obtain rfl := List.mem_singleton.mp hnew
      refine .inr ⟨?_, rfl, rfl⟩
      obtain ⟨hworker, -⟩ := List.getElem?_eq_some_iff.mp hthread
      have hsize : state.pool.threads.length = workers := hinv.size
      omega
  | loop hlabel htasks => exact hinv.update_loop fun reply hreply ↦ .inl (htasks ▸ hreply)
  | @wakeup worker loop hthread =>
    have hpool : Inv loopOf workers { state with pool := state.pool.put worker .waiting } :=
      hinv.update_pool (Tpl.size_put _ _ _) (List.Subset.refl _)
    exact hpool.update_loop fun reply hreply ↦ .inl hreply
  | @runTask loop reply rest next htasks hanswers =>
    have hreply : WellFormed loopOf workers loop reply :=
      hinv.tasks loop reply (htasks ▸ List.mem_cons_self)
    have hloop : Inv loopOf workers
        { state with loops := Function.update state.loops loop rest } :=
      hinv.update_loop fun other hother ↦ .inl (htasks ▸ List.mem_cons_of_mem _ hother)
    exact hloop.answers hreply.framed hanswers
  | @send fd writen connection ep hserves houtput =>
    refine { hinv with
      connected := connected_served hinv.connected hserves
      linked := linked_served hinv.linked hserves
      stream := ?_ }
    intro other
    by_cases hother : other = fd
    · subst hother
      simp only [served, Function.update_self]
      rw [houtput, List.append_assoc, Connection.taken_append_unsent]
      exact hinv.stream other
    · simp only [served, Function.update_of_ne hother]
      exact hinv.stream other

/-- With no workers nothing is queued or being run. -/
theorem Inv.nothing_pending {loopOf : Fd → ℕ} {workers : ℕ} {state : State}
    (hinv : Inv loopOf workers state) (hsize : state.pool.size = 0) :
    state.pool.q = [] ∧ state.pool.running = [] ∧
      ∀ loop, (state.loops loop).taskQueue = [] := by
  have hworkers : workers = 0 := hinv.size.symm.trans hsize
  refine ⟨?_, ?_, fun loop ↦ ?_⟩
  · by_contra hne
    exact hinv.queue hne hworkers
  · have hthreads : state.pool.threads = [] := List.length_eq_zero_iff.mp hsize
    rw [Tpl.running, hthreads, List.filterMap_nil]
  · refine List.eq_nil_iff_forall_not_mem.mpr fun reply hreply ↦ ?_
    exact (hinv.tasks loop reply hreply).pushed hworkers

/-- Dispatching a message adds the next request. -/
theorem requests_counted (state : State) (fd : Fd) (message : Bytes) :
    requests (counted state fd message) fd =
      requests state fd ++ [(nextJob state fd message).request] := by
  simp [requests, counted, nextJob, List.zipIdx_append]

/-- Dispatching a message adds no request of another connection. -/
theorem requests_counted_of_ne (state : State) {fd other : Fd} (hne : other ≠ fd)
    (message : Bytes) : requests (counted state fd message) other = requests state other := by
  simp only [requests, counted, Function.update_of_ne hne]

/-- A change of the threads that permutes the tasks being run permutes the requests of a connection
being worked on. -/
theorem move_of_running_perm {loopOf : Fd → ℕ} {state next : State} {fd : Fd}
    (hrunning : state.pool.running.Perm next.pool.running) (hq : next.pool.q = state.pool.q)
    (htasks : (next.loops (loopOf fd)).taskQueue = (state.loops (loopOf fd)).taskQueue)
    (hdispatched : next.dispatched = state.dispatched) (happended : next.appended = state.appended)
    (mayFinish : Request → Prop) :
    Pipeline.Move mayFinish (pipeline loopOf state fd) (pipeline loopOf next fd) := by
  refine .shuffle ?_ ?_ (requestsOf_perm fd hrunning) ?_ ?_
  · simp only [pipeline, requests, hdispatched]
  · simp only [pipeline, hq]
  · simp only [pipeline, htasks]
  · simp only [pipeline, happended]

/-- Every effect is a move of every pipeline. It finishes at most the request a worker answers. -/
theorem Inv.move {loopOf : Fd → ℕ} {workers : ℕ} {state next : State} {label : Label}
    (hinv : Inv loopOf workers state) (heffect : Effect loopOf state label next) {fd : Fd}
    {mayFinish : Request → Prop}
    (hmay : ∀ worker job, label = .handledata worker →
      state.pool.threads[worker]? = some (.running job) → job.fd = fd → mayFinish job.request) :
    Pipeline.Move mayFinish (pipeline loopOf state fd) (pipeline loopOf next fd) := by
  cases heffect with
  | enqueue other message hsize =>
    by_cases hfd : fd = other
    · subst hfd
      refine .issue (nextJob state fd message).request (requests_counted state fd message)
        ?_ rfl rfl rfl
      exact (requestsOf_append fd _ _).trans
        (congrArg _ (requestsOf_cons_self (nextJob state fd message) []))
    · refine .shuffle (requests_counted_of_ne state hfd message) ?_ (List.Perm.refl _) rfl rfl
      refine (requestsOf_append fd _ _).trans ?_
      rw [requestsOf_cons_of_ne (Ne.symm hfd)]
      exact List.append_nil _
  | @answer other message _ hsize hanswers =>
    obtain ⟨hserves, houtput⟩ := hanswers
    obtain ⟨hq, hrunning, htasks⟩ := hinv.nothing_pending hsize
    by_cases hfd : fd = other
    · subst hfd
      refine .bypass (nextJob state fd message).request (requests_counted state fd message)
        ⟨?_, ?_⟩ ⟨?_, ?_⟩ ⟨?_, ?_⟩ (Function.update_self _ _ _)
      · exact congrArg (requestsOf fd) hq
      · exact congrArg (requestsOf fd) hq
      · exact congrArg (requestsOf fd) hrunning
      · exact congrArg (requestsOf fd) hrunning
      · exact congrArg (fun tasks ↦ requestsOf fd (tasks.map Reply.job)) (htasks _)
      · exact congrArg (fun tasks ↦ requestsOf fd (tasks.map Reply.job)) (htasks _)
    · exact .shuffle (requests_counted_of_ne state hfd message) rfl (List.Perm.refl _) rfl
        (Function.update_of_ne hfd _ _)
  | @take worker job rest hthread hq =>
    have hrunning : ({ state.pool with q := rest }.put worker (.running job)).running.Perm
        (job :: state.pool.running) := Tpl.running_put_running hthread job
    by_cases hfd : job.fd = fd
    · subst hfd
      refine .start job.request rfl ?_ ?_ rfl rfl
      · simp only [pipeline, hq, requestsOf_cons_self, Tpl.q_put]
      · have hperm := requestsOf_perm job.fd hrunning
        rwa [requestsOf_cons_self] at hperm
    · refine .shuffle rfl ?_ ?_ rfl rfl
      · simp only [pipeline, hq, requestsOf_cons_of_ne hfd, Tpl.q_put]
      · have hperm := requestsOf_perm fd hrunning
        rw [requestsOf_cons_of_ne hfd] at hperm
        exact hperm.symm
  | @handOver worker job hthread =>
    have hrunning : state.pool.running.Perm
        (job :: (state.pool.put worker (.waking (loopOf job.fd))).running) :=
      Tpl.running_put_done hthread rfl
    by_cases hfd : job.fd = fd
    · subst hfd
      refine .finish job.request (hmay worker job rfl hthread rfl) rfl rfl ?_ ?_ rfl
      · have hperm := requestsOf_perm job.fd hrunning
        rwa [requestsOf_cons_self] at hperm
      · simp only [pipeline, Function.update_self, List.map_append, requestsOf_append]
        exact congrArg _ (requestsOf_cons_self job [])
    · refine .shuffle rfl rfl ?_ ?_ rfl
      · have hperm := requestsOf_perm fd hrunning
        rwa [requestsOf_cons_of_ne hfd] at hperm
      · by_cases hloop : loopOf fd = loopOf job.fd
        · simp only [pipeline, hloop, Function.update_self, List.map_append, requestsOf_append]
          rw [List.map_singleton, requestsOf_cons_of_ne hfd]
          exact List.append_nil _
        · simp only [pipeline, Function.update_of_ne hloop]
  | @loop loop label after hlabel htasks =>
    apply move_of_running_perm
    case hrunning => exact List.Perm.refl _
    case hq | hdispatched | happended => rfl
    by_cases hloop : loopOf fd = loop
    · simp only [hloop, Function.update_self, htasks]
    · simp only [Function.update_of_ne hloop]
  | @wakeup worker loop hthread =>
    apply move_of_running_perm
    case hrunning => exact Tpl.running_put_idle hthread rfl rfl
    case hq | hdispatched | happended => rfl
    by_cases hloop : loopOf fd = loop
    · simp only [hloop, Function.update_self, EventLoop.wakeup]
    · simp only [Function.update_of_ne hloop]
  | @runTask loop reply rest _ htasks hanswers =>
    obtain ⟨hserves, houtput⟩ := hanswers
    by_cases hfd : reply.job.fd = fd
    · subst hfd
      have hloop : loopOf reply.job.fd = loop :=
        (hinv.tasks loop reply (htasks ▸ List.mem_cons_self)).routed
      refine .deliver reply.job.request rfl rfl rfl ?_ (Function.update_self _ _ _)
      simp only [pipeline, served, hloop, Function.update_self, htasks, List.map_cons,
        requestsOf_cons_self]
    · refine .shuffle rfl rfl (List.Perm.refl _) ?_ (Function.update_of_ne (Ne.symm hfd) _ _)
      by_cases hloop : loopOf fd = loop
      · simp only [pipeline, served, hloop, Function.update_self, htasks, List.map_cons,
          requestsOf_cons_of_ne hfd]
      · simp only [pipeline, served, Function.update_of_ne hloop]
  | send hserves houtput => exact .of_eq rfl

/-! ### Runs -/

/-- A worker hands over a reply only while no earlier request of its connection is being worked
on. -/
def InTurn (state : State) : Label → Prop
  | .handledata worker =>
    ∀ job ∈ state.pool.taskOf worker, ∀ other ∈ state.pool.running,
      other.fd = job.fd → ¬ other.request.2 < job.request.2
  | _ => True

instance (state : State) : ∀ label, Decidable (InTurn state label)
  | .handledata worker =>
    inferInstanceAs (Decidable (∀ job ∈ state.pool.taskOf worker, ∀ other ∈ state.pool.running,
      other.fd = job.fd → ¬ other.request.2 < job.request.2))
  | .handleMessage _ _ | .take _ | .wakeup _ | .handleWakeup _ | .runTask _ | .release _
  | .sendClient _ _ => .isTrue trivial

section Runs

variable {loopOf : Fd → ℕ} {workers : ℕ} {state : State}

/-- The invariant holds before the first request. -/
theorem Initial.inv (hinitial : Initial loopOf workers state) : Inv loopOf workers state where
  size := by rw [hinitial.pool, Tpl.size_new]
  queue := fun hne ↦ absurd (by rw [hinitial.pool]; rfl) hne
  tasks := by
    intro loop reply hreply
    rw [hinitial.loops] at hreply
    exact absurd hreply List.not_mem_nil
  connected := hinitial.connected
  linked := hinitial.linked
  stream := by
    intro fd
    rw [hinitial.accepted, hinitial.output, hinitial.appended]
    rfl

/-- Before the first request every pipeline is empty. -/
theorem Initial.pipeline_eq (hinitial : Initial loopOf workers state) (fd : Fd) :
    pipeline loopOf state fd = ⟨[], [], [], [], []⟩ := by
  rw [pipeline, requests, hinitial.pool, hinitial.loops, hinitial.dispatched, hinitial.appended,
    Tpl.running_new]
  rfl

/-- In every run the invariant holds, and no request of any connection is lost or duplicated. -/
theorem inv_of_reachable (hreach : (system loopOf workers).Reachable state) :
    Inv loopOf workers state ∧ ∀ fd, (pipeline loopOf state fd).Conserved := by
  refine hreach.invariant
    (fun reached ↦ Inv loopOf workers reached ∧ ∀ fd, (pipeline loopOf reached fd).Conserved) ?_ ?_
  · intro start hinitial
    refine ⟨hinitial.inv, fun fd ↦ ?_⟩
    rw [hinitial.pipeline_eq]
    exact List.Perm.refl _
  · rintro before label after ⟨hinv, hconserved⟩ - hstep
    have heffect := effect_of_step hinv hstep
    refine ⟨hinv.effect heffect, fun fd ↦ ?_⟩
    have hmove : Pipeline.Move (fun _ ↦ True) (pipeline loopOf before fd)
        (pipeline loopOf after fd) := hinv.move heffect fun _ _ _ _ _ ↦ trivial
    exact (hconserved fd).move hmove

/-- In every run that answers in turn the requests of every connection stay in order. -/
theorem ordered_of_inTurn (hreach : (system loopOf workers).ReachesUnder InTurn state) :
    Inv loopOf workers state ∧ ∀ fd, (pipeline loopOf state fd).Ordered := by
  refine hreach.invariant
    (fun reached ↦ Inv loopOf workers reached ∧ ∀ fd, (pipeline loopOf reached fd).Ordered) ?_ ?_
  · intro start hinitial
    refine ⟨hinitial.inv, fun fd ↦ ?_⟩
    rw [hinitial.pipeline_eq]
    exact ⟨[], List.Perm.refl _, rfl⟩
  · rintro before label after ⟨hinv, hordered⟩ hturn hstep
    have heffect := effect_of_step hinv hstep
    refine ⟨hinv.effect heffect, fun fd ↦ ?_⟩
    have hmove : Pipeline.Move
        (fun request ↦ ∀ other ∈ (pipeline loopOf before fd).working, ¬ other.2 < request.2)
        (pipeline loopOf before fd) (pipeline loopOf after fd) := by
      refine hinv.move heffect ?_
      rintro worker job rfl hthread rfl other hother
      obtain ⟨task, htask, hrequest⟩ := List.mem_filterMap.mp hother
      split_ifs at hrequest with hfd
      cases hrequest
      exact hturn job (Tpl.mem_taskOf.mpr hthread) task htask hfd
    exact (hordered fd).move (requests_pairwise before fd) (fun _ hmay ↦ hmay) hmove

/-- With at most one worker every run answers in turn. -/
theorem inTurn_of_le_one (hworkers : workers ≤ 1)
    (hreach : (system loopOf workers).Reachable state) :
    (system loopOf workers).ReachesUnder InTurn state := by
  induction hreach with
  | initial hinitial => exact .initial hinitial
  | @step before after label hbefore _ hstep ih =>
    refine .step ih ?_ hstep
    have hsize : before.pool.threads.length = workers := (inv_of_reachable hbefore).1.size
    cases label with
    | handledata worker =>
      intro job hjob other hother hfd
      have hthread := Tpl.mem_taskOf.mp hjob
      obtain ⟨another, hanother⟩ := Tpl.mem_running.mp hother
      obtain ⟨hworker, -⟩ := List.getElem?_eq_some_iff.mp hthread
      obtain ⟨hanotherLt, -⟩ := List.getElem?_eq_some_iff.mp hanother
      obtain rfl : worker = another := by omega
      rw [hthread] at hanother
      cases hanother
      exact Nat.lt_irrefl _
    | _ => trivial

/-- Nothing is queued or being run, and no task waits for a loop. -/
def Quiet (state : State) (loop : ℕ) : Prop :=
  state.pool.q = [] ∧ state.pool.running = [] ∧ (state.loops loop).taskQueue = []

/-- With nothing pending every request has been answered. -/
theorem appended_perm {fd : Fd} (hconserved : (pipeline loopOf state fd).Conserved)
    (hquiet : Quiet state (loopOf fd)) : (state.appended fd).Perm (requests state fd) := by
  obtain ⟨hq, hrunning, htasks⟩ := hquiet
  refine hconserved.delivered_perm ?_ ?_ ?_
  · exact congrArg (requestsOf fd) hq
  · exact congrArg (requestsOf fd) hrunning
  · exact congrArg (fun tasks ↦ requestsOf fd (tasks.map Reply.job)) htasks

/-- In every run, what the kernel has accepted of a connection and its output buffer are together
the whole reply frames of distinct requests of the connection; of all of them when nothing is
pending, and of the first ones, in order, when there is at most one worker. -/
theorem replies_whole (hreach : (system loopOf workers).Reachable state) (fd : Fd) :
    ∃ replied : List Request, replied.Nodup ∧ replied ⊆ requests state fd ∧
      state.accepted fd ++ (state.connections fd).outputbuffer.buf =
        replied.flatMap (fun request ↦ handledata request.1) ∧
      (Quiet state (loopOf fd) → replied.Perm (requests state fd)) ∧
      (workers ≤ 1 → replied = (requests state fd).take replied.length) := by
  obtain ⟨hinv, hconserved⟩ := inv_of_reachable hreach
  refine ⟨state.appended fd, ?_, ?_, hinv.stream fd, appended_perm (hconserved fd), ?_⟩
  · exact (hconserved fd).delivered_nodup (requests_nodup state fd)
  · exact (hconserved fd).delivered_subset
  · intro hworkers
    have hordered := (ordered_of_inTurn (inTurn_of_le_one hworkers hreach)).2 fd
    exact hordered.delivered_take

/-- A state before the first request. -/
def start (workers : ℕ) : State where
  pool := .new workers
  loops := fun _ ↦ .new
  eps := fun _ ↦ ⟨fun _ ↦ some ⟨EPOLLET ||| EPOLLIN, 1⟩, fun _ ↦ 0, fun _ ↦ false⟩
  connections := fun fd ↦ .published 1 fd 0
  accepted := fun _ ↦ []
  dispatched := fun _ ↦ []
  appended := fun _ ↦ []

theorem start_initial (loopOf : Fd → ℕ) (workers : ℕ) :
    Initial loopOf workers (start workers) where
  pool := rfl
  loops := rfl
  connected := fun _ ↦ rfl
  output := fun _ ↦ rfl
  linked := fun _ ↦ ⟨rfl, rfl⟩
  accepted := rfl
  dispatched := rfl
  appended := rfl

/-- One worker answers the request `"a"`, and the kernel accepts three bytes of the reply. -/
theorem replies_whole_one :
    ∃ state, (system (fun _ ↦ 0) 1).Reachable state ∧ (state.accepted 5).length = 3 ∧
      ∃ replied : List Request, replied.Nodup ∧ replied ⊆ requests state 5 ∧
        state.accepted 5 ++ (state.connections 5).outputbuffer.buf =
          replied.flatMap (fun request ↦ handledata request.1) ∧
        (Quiet state 0 → replied.Perm (requests state 5)) ∧
        (1 ≤ 1 → replied = (requests state 5).take replied.length) := by
  have hreach : ∃ state, (system (fun _ ↦ 0) 1).Reachable state ∧
      (state.accepted 5).length = 3 :=
    ⟨_, .of_run (.initial (start_initial _ 1))
      [.handleMessage 5 [97], .take 0, .handledata 0, .wakeup 0, .handleWakeup 0, .runTask 0,
        .release 0, .sendClient 5 3] rfl, rfl⟩
  obtain ⟨state, hstate, haccepted⟩ := hreach
  exact ⟨state, hstate, haccepted, replies_whole hstate 5⟩

/-- The frames of the first requests are those of the first messages dispatched. -/
theorem flatMap_take_requests (state : State) (fd : Fd) (count : ℕ) :
    ((requests state fd).take count).flatMap (fun request ↦ handledata request.1) =
      ((state.dispatched fd).take count).flatMap handledata := by
  have hmessages : ((requests state fd).take count).map Prod.fst =
      (state.dispatched fd).take count := by
    rw [List.map_take, requests, List.zipIdx_map_fst]
  rw [← hmessages, List.flatMap_map]

/-- In every run that answers in turn, what the kernel has accepted of a connection and its output
buffer are together the reply frames of the first messages dispatched, in the order of dispatch. -/
theorem replies_ordered (hreach : (system loopOf workers).ReachesUnder InTurn state) (fd : Fd) :
    ∃ count, state.accepted fd ++ (state.connections fd).outputbuffer.buf =
      ((state.dispatched fd).take count).flatMap handledata := by
  obtain ⟨hinv, hordered⟩ := ordered_of_inTurn hreach
  refine ⟨(state.appended fd).length, ?_⟩
  rw [← flatMap_take_requests, hinv.stream]
  exact congrArg (List.flatMap _) (hordered fd).delivered_take

/-- One worker answers `"a"` and `"b"` in turn. -/
theorem replies_ordered_two :
    ∃ state, (system (fun _ ↦ 0) 2).ReachesUnder InTurn state ∧
      (state.dispatched 5).length = 2 ∧
      ∃ count, state.accepted 5 ++ (state.connections 5).outputbuffer.buf =
        ((state.dispatched 5).take count).flatMap handledata := by
  have hreach : ∃ state, (system (fun _ ↦ 0) 2).ReachesUnder InTurn state ∧
      (state.dispatched 5).length = 2 := by
    refine ⟨_, .of_run (.initial (start_initial _ 2))
      [.handleMessage 5 [97], .handleMessage 5 [98], .take 0, .take 1, .handledata 0, .wakeup 0,
        .handledata 1, .handleWakeup 0, .runTask 0, .runTask 0, .release 0] ?_ rfl, ?_⟩
    · decide
    · rfl
  obtain ⟨state, hstate, hdispatched⟩ := hreach
  exact ⟨state, hstate, hdispatched, replies_ordered hstate 5⟩

/-- Two workers answer `"a"` and `"b"` the other way round. -/
theorem not_replies_ordered_two :
    ¬ ∀ state, (system (fun _ ↦ 0) 2).Reachable state → ∀ fd,
      ∃ count, state.accepted fd ++ (state.connections fd).outputbuffer.buf =
        ((state.dispatched fd).take count).flatMap handledata := by
  intro hordered
  have hreach : ∃ state, (system (fun _ ↦ 0) 2).Reachable state ∧
      state.dispatched 5 = [[97], [98]] ∧ state.accepted 5 = [] ∧
      (state.connections 5).outputbuffer.buf = handledata [98] ++ handledata [97] :=
    ⟨_, .of_run (.initial (start_initial _ 2))
      [.handleMessage 5 [97], .handleMessage 5 [98], .take 0, .take 1, .handledata 1, .handledata 0,
        .wakeup 0, .handleWakeup 0, .runTask 0, .runTask 0] rfl, rfl, rfl, rfl⟩
  obtain ⟨state, hstate, hdispatched, haccepted, houtput⟩ := hreach
  obtain ⟨count, hstream⟩ := hordered state hstate 5
  rw [haccepted, houtput, hdispatched] at hstream
  match count with
  | 0 => cases hstream
  | 1 => exact absurd hstream (by decide)
  | count + 2 =>
    rw [List.take_of_length_le (by simp)] at hstream
    exact absurd hstream (by decide)

end Runs

end Reactor.ReplyPipeline
