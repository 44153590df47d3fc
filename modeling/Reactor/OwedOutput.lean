import Reactor.Lifetime
import Reactor.ReplyPipeline
import Reactor.Library.Ledger

/-!
# Output owed at a close

Output of a connection is owed in its output buffer, in a `send_inloop` task of its loop, and in a
`Handledata` task of the worker pool. A connection is destroyed by the main thread, when the timer
finds it idle, and by the thread of its loop, when `read` returned `0`, when the kernel reports
`EPOLLRDHUP`, and on an error.

`step` is this system for any number of loops and workers. Objects are named as in `Lifetime`, and
have their buffers, channels and callbacks. `Handledata` is two steps, since `sendmessage` tests
`disconnect_` before it takes the mutex of the task queue. A deleted object is read as it was left.
For each connection the state counts the bytes of the replies to its requests, those the kernel has
accepted, and those `sendmessage` dropped.

`Effect` says once what a step can do (`effect_of_step`), and two invariants are kept by every
effect: `Inv` is the balance of these counts with what is owed, and `Closing` says that the counts
of a connection stand still from the end of its input to its destruction. From the two, a connection
that is destroyed for being idle, or at the end of its input, owes nothing and has had no reply
dropped exactly when the kernel had accepted its replies, byte for byte, by then, or by the time
`read` returned `0` (`served_along_iff`).
-/

set_option autoImplicit false
set_option relaxedAutoImplicit false

namespace Reactor.OwedOutput

open Library
open Connection (setcallback)
open Lifetime (Conn Pointer loopOf)
open ReplyPipeline (handledata)

/-- A request of a connection. The data of its reply is `handledata message`. -/
structure Request where
  conn : Conn
  message : Bytes

/-- A task of the pool: `Handledata` bound to a connection and a message, or what is left of it past
the test of `disconnect_`. -/
inductive Task
  | handledata (request : Request)
  | addtask (request : Request)

/-- The request a task answers. -/
def Task.request : Task → Request
  | .handledata request | .addtask request => request

/-- What the thread of a loop is doing. -/
inductive Phase
  /-- It is between two handlers, or in `epoll_wait` when its batch is empty. -/
  | between
  /-- It is in `onmessage`, and has dispatched messages or not. -/
  | reading (conn : Conn) (draining : Bool)
  /-- It is in `close_client` or `error_client`, past the assignment of `disconnect_`, in the
  callback of the channel given. -/
  | closing (conn : Conn) (callback : Channel.Branch)
  /-- It is in `handle_wakeup`. -/
  | waking
  deriving DecidableEq

/-- The connection whose handler is running. -/
def Phase.conn? : Phase → Option Conn
  | .reading conn _ | .closing conn _ => some conn
  | .between | .waking => none

/-- What the main thread is doing. -/
inductive MainPhase
  | idle
  /-- It is in `newconnection` and has set some of the four callbacks. -/
  | setting (conn : Conn) (count : ℕ)
  /-- It is in `handle_timer`, past a test that found the connection idle, and has cleared some of
  the four callbacks. -/
  | clearing (conn : Conn) (count : ℕ)
  deriving DecidableEq

/-- A loop, with the channels of its batch that have not been handled and their events. -/
structure IoLoop where
  ep : Epoll
  tasks : EventLoop Request
  batch : List (Pointer × EventMask)
  phase : Phase

structure State where
  main : MainPhase
  pool : Tpl Task
  loops : ℕ → IoLoop
  /-- The objects built so far. -/
  objects : Conn → Option Connection
  /-- The number of objects built on each descriptor. -/
  opened : Fd → ℕ
  live : Conn → Bool
  /-- The number of bytes in the replies to the requests each connection has dispatched. -/
  replied : Conn → ℕ
  /-- The number of bytes of each connection the kernel has accepted. -/
  accepted : Conn → ℕ
  /-- The number of bytes of each connection that `sendmessage` dropped. -/
  dropped : Conn → ℕ
  /-- The counts `replied` and `accepted` of each connection when its `read` returned `0`. -/
  atEof : Conn → ℕ × ℕ

inductive Label
  | newconnection (fd : Fd) (this : ℕ) (now : ℤ)
  | setcallback
  | timeout (conn : Conn) (now : ℤ)
  | clear
  | evict
  | epollWait (loop : ℕ) (reported : List (Pointer × EventMask))
  | handleevent (loop : ℕ) (writen : ℤ)
  | handleMessage (loop : ℕ) (message : Bytes) (now : ℤ)
  | return (loop : ℕ)
  | eof (loop : ℕ)
  | closeconnection (loop : ℕ)
  | take (worker : ℕ)
  | handledata (worker : ℕ)
  | addtask (worker : ℕ)
  | wakeup (worker : ℕ)
  | runTask (loop : ℕ)
  | release (loop : ℕ)

/-- A loop goes on. -/
def State.setLoop (state : State) (loop : ℕ) (io : IoLoop) : State :=
  { state with loops := Function.update state.loops loop io }

/-- An object is assigned to. -/
def State.assign (state : State) (conn : Conn) (connection : Connection) : State :=
  { state with objects := Function.update state.objects conn (some connection) }

/-- Counts some more for a connection. -/
def credit (count : Conn → ℕ) (conn : Conn) (amount : ℕ) : Conn → ℕ :=
  Function.update count conn (count conn + amount)

/-- The number of bytes in the reply to a request. -/
def Request.size (request : Request) : ℕ := (handledata request.message).length

section Steps

variable (threadnum : ℕ) (timeout : ℤ)

/-- An object is deleted, which closes its descriptor. -/
def delete (state : State) (conn : Conn) : State :=
  let io := state.loops (loopOf threadnum conn)
  { state.setLoop (loopOf threadnum conn) { io with ep := io.ep.close conn.1 } with
    live := Function.update state.live conn false }

/-- `send_inloop` on the thread of its loop. -/
def sendInloop (state : State) (request : Request) : Option State :=
  let loop := loopOf threadnum request.conn
  match state.objects request.conn with
  | none => none
  | some connection =>
    match connection.sendInloop (handledata request.message) (state.loops loop).ep with
    | .error _ => none
    | .ok (next, ep) =>
      some ((state.assign request.conn next).setLoop loop { state.loops loop with ep })

/-- `EchoServer::HandleMessage`. -/
def handleMessage (state : State) (connection : Connection) (request : Request) : Option State :=
  let next := { state with replied := credit state.replied request.conn request.size }
  if state.pool.size = 0 then
    match connection.sendmessage true (handledata request.message) with
    | .dropped =>
      some { next with dropped := credit state.dropped request.conn request.size }
    | .inloop _ => sendInloop threadnum next request
    | .addtask _ => none
  else some { next with pool := state.pool.enqueue (.handledata request) }

/-- `handleevent` of the channel of a connection, which is no longer in the batch of its loop. -/
def handleevent (state : State) (loop : ℕ) (conn : Conn) (revent : EventMask) (writen : ℤ) :
    Option State :=
  let io := state.loops loop
  match state.objects conn with
  | none => none
  | some connection =>
    match Channel.handleevent revent with
    | .close =>
      some ((state.assign conn connection.closeClient.1).setLoop loop
        { io with phase := .closing conn .close })
    | .error =>
      some ((state.assign conn connection.errorClient.1).setLoop loop
        { io with phase := .closing conn .error })
    | .read => some (state.setLoop loop { io with phase := .reading conn false })
    | .write =>
      if writen < -1 ∨ connection.outputbuffer.size < writen then none
      else
        match connection.sendClient writen io.ep with
        | .error _ => none
        | .ok (next, ep, _) =>
          some { (state.assign conn next).setLoop loop { io with ep } with
            accepted := credit state.accepted conn writen.toNat }

/-- What `epoll_wait` can report to a loop: its live connections, whose descriptors are open, and
its `eventfd` when that can be read. -/
def Reportable (state : State) (loop : ℕ) : Pointer → Prop
  | .connection conn => state.live conn = true ∧ loopOf threadnum conn = loop
  | .wakeup => 0 < (state.loops loop).tasks.eventfd

instance (state : State) (loop : ℕ) : ∀ pointer, Decidable (Reportable threadnum state loop pointer)
  | .connection conn =>
    inferInstanceAs (Decidable (state.live conn = true ∧ loopOf threadnum conn = loop))
  | .wakeup => inferInstanceAs (Decidable (0 < (state.loops loop).tasks.eventfd))

def step (state : State) : Label → Option State
  | .newconnection fd this now =>
    if state.main ≠ .idle ∨ ∃ earlier, earlier < state.opened fd ∧ state.live (fd, earlier) = true
      then none
    else
      let conn := (fd, state.opened fd)
      let io := state.loops (loopOf threadnum conn)
      match Connection.new this fd now io.ep with
      | .error _ => none
      | .ok (connection, ep) =>
        some { (state.assign conn connection).setLoop (loopOf threadnum conn) { io with ep } with
          main := .setting conn 0
          opened := Function.update state.opened fd (state.opened fd + 1)
          live := Function.update state.live conn true }
  | .setcallback =>
    match state.main with
    | .setting conn count =>
      if count < 4 then
        (state.objects conn).map fun connection ↦
          { state.assign conn (setcallback count true connection) with
            main := .setting conn (count + 1) }
      else some { state with main := .idle }
    | _ => none
  | .timeout conn now =>
    match state.objects conn with
    | none => none
    | some connection =>
      if state.main = .idle ∧ state.live conn = true ∧ connection.timeout now timeout = true then
        some { state with main := .clearing conn 0 }
      else none
  | .clear =>
    match state.main with
    | .clearing conn count =>
      if count < 4 then
        (state.objects conn).map fun connection ↦
          { state.assign conn (setcallback count false connection) with
            main := .clearing conn (count + 1) }
      else none
    | _ => none
  | .evict =>
    match state.main with
    | .clearing conn 4 => some { delete threadnum state conn with main := .idle }
    | _ => none
  | .epollWait loop reported =>
    let io := state.loops loop
    if io.phase = .between ∧ io.batch = [] ∧ (reported.map Prod.fst).Nodup ∧
        ∀ entry ∈ reported, Reportable threadnum state loop entry.1 then
      some (state.setLoop loop { io with batch := reported })
    else none
  | .handleevent loop writen =>
    let io := state.loops loop
    match io.phase, io.batch with
    | .between, (.connection conn, revent) :: rest =>
      handleevent (state.setLoop loop { io with batch := rest }) loop conn revent writen
    | .between, (.wakeup, _) :: rest =>
      io.tasks.handleWakeup.map fun tasks ↦
        state.setLoop loop { io with tasks, batch := rest, phase := .waking }
    | _, _ => none
  | .handleMessage loop message now =>
    let io := state.loops loop
    match io.phase with
    | .reading conn _ =>
      match state.objects conn with
      | none => none
      | some connection =>
        let stamped := { connection with lastTime := now }
        let next :=
          (state.assign conn stamped).setLoop loop { io with phase := .reading conn true }
        if connection.messagecallback then handleMessage threadnum next stamped ⟨conn, message⟩
        else some next
    | _ => none
  | .return loop =>
    let io := state.loops loop
    match io.phase with
    | .reading _ _ => some (state.setLoop loop { io with phase := .between })
    | _ => none
  | .eof loop =>
    let io := state.loops loop
    match io.phase with
    | .reading conn false =>
      match state.objects conn with
      | none => none
      | some connection =>
        match connection.clientchannel.remove io.ep with
        | .error _ => none
        | .ok (clientchannel, ep) =>
          some { (state.assign conn ({ connection with clientchannel }.closeClient.1)).setLoop loop
              { io with ep, phase := .closing conn .read } with
            atEof := Function.update state.atEof conn (state.replied conn, state.accepted conn) }
    | _ => none
  | .closeconnection loop =>
    let io := state.loops loop
    match io.phase with
    | .closing conn callback =>
      match state.objects conn with
      | none => none
      | some connection =>
        let next := state.setLoop loop { io with phase := .between }
        if connection.callbackSet (callback = .error) then some (delete threadnum next conn)
        else some next
    | _ => none
  | .take worker => (state.pool.take worker).map fun pool ↦ { state with pool }
  | .handledata worker =>
    match state.pool.threads[worker]? with
    | some (.running (.handledata request)) =>
      match state.objects request.conn with
      | none => none
      | some connection =>
        match connection.sendmessage false (handledata request.message) with
        | .dropped =>
          some { state with
            pool := state.pool.put worker .waiting
            dropped := credit state.dropped request.conn request.size }
        | .inloop _ => none
        | .addtask _ =>
          some { state with pool := state.pool.put worker (.running (.addtask request)) }
    | _ => none
  | .addtask worker =>
    match state.pool.threads[worker]? with
    | some (.running (.addtask request)) =>
      let loop := loopOf threadnum request.conn
      let io := state.loops loop
      (io.tasks.push request).map fun tasks ↦
        { state.setLoop loop { io with tasks } with pool := state.pool.put worker (.waking loop) }
    | _ => none
  | .wakeup worker =>
    match state.pool.threads[worker]? with
    | some (.waking loop) =>
      let io := state.loops loop
      some { state.setLoop loop { io with tasks := io.tasks.wakeup } with
        pool := state.pool.put worker .waiting }
    | _ => none
  | .runTask loop =>
    let io := state.loops loop
    io.tasks.pop.bind fun (request, tasks) ↦
      sendInloop threadnum (state.setLoop loop { io with tasks }) request
  | .release loop =>
    let io := state.loops loop
    io.tasks.release.map fun tasks ↦ state.setLoop loop { io with tasks, phase := .between }

/-- The server before the first connection. -/
structure Initial (workers : ℕ) (state : State) : Prop where
  main : state.main = .idle
  pool : state.pool = Tpl.new workers
  loops : ∀ loop, (state.loops loop).tasks = .new ∧ (state.loops loop).batch = [] ∧
    (state.loops loop).phase = .between
  objects : state.objects = fun _ ↦ none
  replied : state.replied = fun _ ↦ 0
  accepted : state.accepted = fun _ ↦ 0
  dropped : state.dropped = fun _ ↦ 0

/-- The system, for a number of loops, the time after which a connection is evicted, and a number
of workers. -/
def system (workers : ℕ) : TransitionSystem State Label where
  initial := Initial workers
  step := step threadnum timeout

end Steps

/-! ### What is owed -/

/-- What a connection has in its output buffer. -/
def State.output (state : State) (conn : Conn) : Bytes :=
  match state.objects conn with
  | none => []
  | some connection => connection.outputbuffer.buf

/-- The connection a step destroys because it is idle or because `read` returned `0`. -/
def destroyed? (state : State) : Label → Option Conn
  | .evict =>
    match state.main with
    | .clearing conn 4 => some conn
    | _ => none
  | .closeconnection loop =>
    match (state.loops loop).phase with
    | .closing conn .read =>
      if (state.objects conn).any (fun connection ↦ connection.callbackSet false) then some conn
      else none
    | _ => none
  | _ => none

/-- The bytes of the replies to the requests of a connection and those the kernel has accepted: at
the step that destroys an idle connection, and when `read` returned `0`. -/
def counts (state : State) : Label → Conn → ℕ × ℕ
  | .closeconnection _, conn => state.atEof conn
  | _, conn => (state.replied conn, state.accepted conn)

/-- The replies of a connection that is destroyed for one of these two reasons had been accepted by
the kernel, byte for byte, when the step came or when `read` returned `0`. -/
def Answered (state : State) (label : Label) : Prop :=
  ∀ conn ∈ destroyed? state label, (counts state label conn).1 = (counts state label conn).2

instance (state : State) (label : Label) : Decidable (Answered state label) :=
  inferInstanceAs (Decidable (∀ conn ∈ destroyed? state label, _))

/-- The bytes of replies that some requests come to, for one connection. -/
def owedIn (requests : List Request) (conn : Conn) : ℕ :=
  due Request.conn Request.size (requests : Multiset Request) conn

/-- The bytes of replies of a connection that are in tasks. -/
def pending (threadnum : ℕ) (state : State) (conn : Conn) : ℕ :=
  owedIn (state.pool.q.map Task.request) conn + owedIn (state.pool.running.map Task.request) conn +
    owedIn (state.loops (loopOf threadnum conn)).tasks.taskQueue conn

/-- Every byte of a reply is accepted, dropped, in the output buffer or in a task, but for the
requests that a step has in hand. Between two steps it has none. -/
structure Inv (threadnum : ℕ) (hand : List Request) (state : State) : Prop where
  unbuilt : ∀ conn : Conn, state.opened conn.1 ≤ conn.2 → state.objects conn = none
  own : ∀ loop, ∀ request ∈ (state.loops loop).tasks.taskQueue,
    loopOf threadnum request.conn = loop
  balanced : ∀ conn, state.replied conn = state.accepted conn + state.dropped conn +
    (state.output conn).length + pending threadnum state conn + owedIn hand conn

theorem Request.size_pos (request : Request) : 0 < request.size := by
  simp [Request.size, handledata, NativeInt.encodeInt]

theorem owedIn_cons (request : Request) (requests : List Request) (conn : Conn) :
    owedIn (request :: requests) conn =
      (if request.conn = conn then request.size else 0) + owedIn requests conn := by
  rw [owedIn, ← Multiset.cons_coe, due_cons, owedIn]

theorem owedIn_concat (requests : List Request) (request : Request) (conn : Conn) :
    owedIn (requests ++ [request]) conn =
      (if request.conn = conn then request.size else 0) + owedIn requests conn := by
  rw [owedIn, Multiset.coe_eq_coe.mpr (List.perm_append_singleton request requests), ← owedIn,
    owedIn_cons]

/-- The order of tasks does not matter. -/
theorem owedIn_perm {first second : List Request} (hperm : first.Perm second) (conn : Conn) :
    owedIn first conn = owedIn second conn := by
  rw [owedIn, Multiset.coe_eq_coe.mpr hperm, owedIn]

theorem owedIn_eq_zero_iff (requests : List Request) (conn : Conn) :
    owedIn requests conn = 0 ↔ ∀ request ∈ requests, request.conn ≠ conn := by
  simp only [owedIn, due_eq_zero_iff _ _ Request.size_pos, Multiset.mem_coe]

theorem credit_apply (count : Conn → ℕ) (conn : Conn) (amount : ℕ) (other : Conn) :
    credit count conn amount other = count other + if conn = other then amount else 0 := by
  unfold credit
  by_cases hother : other = conn
  · subst hother
    simp
  · simp [Function.update_of_ne hother, Ne.symm hother]

section Changes

variable {threadnum : ℕ} {hand : List Request} {state : State}

theorem taskQueue_setLoop (loop : ℕ) (io : IoLoop) (other : ℕ) :
    ((state.setLoop loop io).loops other).tasks.taskQueue =
      if other = loop then io.tasks.taskQueue else (state.loops other).tasks.taskQueue := by
  rw [State.setLoop]
  dsimp only
  by_cases hother : other = loop
  · rw [hother, Function.update_self, if_pos rfl]
  · rw [Function.update_of_ne hother, if_neg hother]

theorem output_assign (conn : Conn) (connection : Connection) (other : Conn) :
    (state.assign conn connection).output other =
      if other = conn then connection.outputbuffer.buf else state.output other := by
  rw [State.output, State.assign]
  dsimp only
  by_cases hother : other = conn
  · rw [hother, Function.update_self, if_pos rfl]
  · rw [Function.update_of_ne hother, if_neg hother, State.output]

theorem output_of_objects {conn : Conn} {connection : Connection}
    (hobject : state.objects conn = some connection) :
    state.output conn = connection.outputbuffer.buf := by
  rw [State.output, hobject]

/-- An object that has been built may be assigned to. -/
theorem Inv.unbuilt_assign (hinv : Inv threadnum hand state) {conn : Conn}
    {connection changed : Connection} (hobject : state.objects conn = some connection)
    (other : Conn) (hother : state.opened other.1 ≤ other.2) :
    (state.assign conn changed).objects other = none := by
  have hne : other ≠ conn := by
    rintro rfl
    rw [hinv.unbuilt other hother] at hobject
    cases hobject
  exact (Function.update_of_ne hne _ _).trans (hinv.unbuilt other hother)

/-- A loop takes the request in hand over, or gives one. -/
theorem Inv.withLoop (hinv : Inv threadnum hand state) {loop : ℕ} {io : IoLoop}
    {given : List Request}
    (hown : ∀ request ∈ io.tasks.taskQueue, loopOf threadnum request.conn = loop)
    (hmoved : ∀ conn, owedIn io.tasks.taskQueue conn + owedIn given conn =
      owedIn (state.loops loop).tasks.taskQueue conn + owedIn hand conn) :
    Inv threadnum given (state.setLoop loop io) := by
  have hforeign : ∀ {requests : List Request},
      (∀ request ∈ requests, loopOf threadnum request.conn = loop) → ∀ {conn},
        loopOf threadnum conn ≠ loop → owedIn requests conn = 0 := by
    intro requests hrequests conn hconn
    refine (owedIn_eq_zero_iff requests conn).mpr fun request hrequest heq ↦ hconn ?_
    rw [← heq]
    exact hrequests request hrequest
  refine ⟨hinv.unbuilt, fun other request hrequest ↦ ?_, fun conn ↦ ?_⟩
  · rw [taskQueue_setLoop] at hrequest
    split_ifs at hrequest with hother
    · rw [hother]
      exact hown request hrequest
    · exact hinv.own other request hrequest
  · have hbalanced := hinv.balanced conn
    have htasks := hmoved conn
    unfold pending at hbalanced ⊢
    rw [taskQueue_setLoop]
    change state.replied conn = state.accepted conn + state.dropped conn +
      (state.output conn).length + (owedIn (state.pool.q.map Task.request) conn +
        owedIn (state.pool.running.map Task.request) conn + _) + _
    split_ifs with hconn
    · rw [hconn] at hbalanced
      omega
    · rw [hforeign hown hconn, hforeign (hinv.own loop) hconn] at htasks
      omega

/-- A loop may go on without touching its task queue. -/
theorem Inv.setLoop (hinv : Inv threadnum hand state) {loop : ℕ} {io : IoLoop}
    (htasks : io.tasks.taskQueue = (state.loops loop).tasks.taskQueue) :
    Inv threadnum hand (state.setLoop loop io) := by
  refine hinv.withLoop (fun request hrequest ↦ ?_) fun conn ↦ by rw [htasks]
  exact hinv.own loop request (htasks ▸ hrequest)

/-- An object may change but for its output buffer. -/
theorem Inv.assign (hinv : Inv threadnum hand state) {conn : Conn}
    {connection changed : Connection} (hobject : state.objects conn = some connection)
    (houtput : changed.outputbuffer = connection.outputbuffer) :
    Inv threadnum hand (state.assign conn changed) := by
  refine ⟨hinv.unbuilt_assign hobject, hinv.own, fun other ↦ ?_⟩
  have hsame : (state.assign conn changed).output other = state.output other := by
    rw [output_assign, houtput, ← output_of_objects hobject]
    split_ifs with hother
    · rw [hother]
    · rfl
  rw [hsame]
  exact hinv.balanced other

/-- What the main thread is doing does not matter, nor what was counted earlier. -/
theorem Inv.withMain (hinv : Inv threadnum hand state) (main : MainPhase)
    (atEof : Conn → ℕ × ℕ) : Inv threadnum hand { state with main, atEof } :=
  ⟨hinv.unbuilt, hinv.own, hinv.balanced⟩

/-- Which objects are live does not matter. -/
theorem Inv.delete (hinv : Inv threadnum hand state) (conn : Conn) :
    Inv threadnum hand (delete threadnum state conn) := by
  have hclosed := @Inv.setLoop _ _ _ hinv (loopOf threadnum conn)
    { state.loops (loopOf threadnum conn) with
      ep := (state.loops (loopOf threadnum conn)).ep.close conn.1 } rfl
  exact ⟨hclosed.unbuilt, hclosed.own, hclosed.balanced⟩

/-- An object that is built owes nothing. -/
theorem Inv.build (hinv : Inv threadnum hand state) {conn : Conn} {connection : Connection}
    (hconn : conn.2 = state.opened conn.1) (houtput : connection.outputbuffer.buf = [])
    {live : Conn → Bool} :
    Inv threadnum hand { state.assign conn connection with
      opened := Function.update state.opened conn.1 (state.opened conn.1 + 1), live } := by
  have hnone := hinv.unbuilt conn hconn.ge
  refine ⟨fun other hother ↦ ?_, hinv.own, fun other ↦ ?_⟩
  · dsimp only at hother
    have hne : other ≠ conn := by
      rintro rfl
      rw [Function.update_self] at hother
      omega
    have hbefore : state.opened other.1 ≤ other.2 := by
      by_cases hfd : other.1 = conn.1
      · rw [hfd, Function.update_self] at hother
        rw [hfd]
        omega
      · rwa [Function.update_of_ne hfd] at hother
    exact (Function.update_of_ne hne _ _).trans (hinv.unbuilt other hbefore)
  · have hsame : (state.assign conn connection).output other = state.output other := by
      rw [output_assign, houtput]
      split_ifs with hother
      · rw [hother, State.output, hnone]
      · rfl
    have hbalanced := hinv.balanced other
    rw [← hsame] at hbalanced
    exact hbalanced

/-- A request is dispatched. -/
theorem Inv.dispatch (hinv : Inv threadnum [] state) (request : Request) :
    Inv threadnum [request]
      { state with replied := credit state.replied request.conn request.size } := by
  refine ⟨hinv.unbuilt, hinv.own, fun conn ↦ ?_⟩
  have hbalanced := hinv.balanced conn
  change credit state.replied request.conn request.size conn = state.accepted conn +
    state.dropped conn + (state.output conn).length + pending threadnum state conn +
      owedIn [request] conn
  rw [credit_apply, owedIn_cons]
  omega

/-- The reply to the request in hand is dropped. -/
theorem Inv.drop {request : Request} (hinv : Inv threadnum [request] state) :
    Inv threadnum []
      { state with dropped := credit state.dropped request.conn request.size } := by
  refine ⟨hinv.unbuilt, hinv.own, fun conn ↦ ?_⟩
  have hbalanced := hinv.balanced conn
  rw [owedIn_cons] at hbalanced
  change state.replied conn = state.accepted conn +
    credit state.dropped request.conn request.size conn + (state.output conn).length +
      pending threadnum state conn + owedIn [] conn
  rw [credit_apply]
  omega

/-- The pool takes the request in hand over, or gives one. -/
theorem Inv.withPool (hinv : Inv threadnum hand state) {pool : Tpl Task} {given : List Request}
    (hmoved : ∀ conn, owedIn (pool.q.map Task.request) conn +
        owedIn (pool.running.map Task.request) conn + owedIn given conn =
      owedIn (state.pool.q.map Task.request) conn +
        owedIn (state.pool.running.map Task.request) conn + owedIn hand conn) :
    Inv threadnum given { state with pool } := by
  refine ⟨hinv.unbuilt, hinv.own, fun conn ↦ ?_⟩
  have hbalanced := hinv.balanced conn
  have hpool := hmoved conn
  unfold pending at hbalanced ⊢
  change state.replied conn = state.accepted conn + state.dropped conn +
    (state.output conn).length + _ + _
  dsimp only
  omega

/-- The pool takes the request in hand into its queue. -/
theorem Inv.enqueue {task : Task} (hinv : Inv threadnum [task.request] state) :
    Inv threadnum [] { state with pool := state.pool.enqueue task } := by
  refine hinv.withPool fun conn ↦ ?_
  rw [Tpl.q_enqueue, Tpl.running_enqueue, List.map_append, List.map_singleton, owedIn_concat,
    owedIn_cons]
  omega

/-- A thread of the pool takes the request in front of the queue. -/
theorem Inv.take (hinv : Inv threadnum [] state) {worker : ℕ} {pool : Tpl Task}
    (htake : state.pool.take worker = some pool) :
    Inv threadnum [] { state with pool } := by
  obtain ⟨task, rest, hthread, hq, rfl⟩ := Tpl.take_eq_some htake
  have hrunning : ({ state.pool with q := rest }.put worker (.running task)).running.Perm
      (task :: state.pool.running) := Tpl.running_put_running hthread task
  refine hinv.withPool fun conn ↦ ?_
  rw [Tpl.q_put, hq, owedIn_perm (hrunning.map Task.request), List.map_cons, List.map_cons,
    owedIn_cons, owedIn_cons]
  dsimp only
  omega

/-- A thread of the pool is done with the request of its task. -/
theorem Inv.finish (hinv : Inv threadnum [] state) {worker : ℕ} {task : Task}
    {other : WorkThread Task} (hthread : state.pool.threads[worker]? = some (.running task))
    (hother : other.task? = none) :
    Inv threadnum [task.request] { state with pool := state.pool.put worker other } := by
  refine hinv.withPool fun conn ↦ ?_
  have hrunning := (Tpl.running_put_done hthread hother).map Task.request
  rw [Tpl.q_put, owedIn_perm hrunning, List.map_cons, owedIn_cons, owedIn_cons]
  omega

/-- A thread of the pool goes on with the request it has. -/
theorem Inv.goOn (hinv : Inv threadnum [] state) {worker : ℕ} {before after : WorkThread Task}
    (hthread : state.pool.threads[worker]? = some before)
    (hsame : before.task?.map Task.request = after.task?.map Task.request) :
    Inv threadnum [] { state with pool := state.pool.put worker after } := by
  refine hinv.withPool fun conn ↦ ?_
  have hrunning : ((state.pool.put worker after).running.map Task.request).Perm
      (state.pool.running.map Task.request) := by
    have hafter := (Tpl.running_put_perm hthread after).map Task.request
    have hbefore := (Tpl.running_perm hthread).map Task.request
    rw [List.map_append, ← Option.toList_map, ← hsame] at hafter
    rw [List.map_append, ← Option.toList_map] at hbefore
    exact hafter.trans hbefore.symm
  rw [Tpl.q_put, owedIn_perm hrunning]

/-- The loop of a connection takes the request in hand into its task queue. -/
theorem Inv.push {request : Request} (hinv : Inv threadnum [request] state)
    {tasks : EventLoop Request}
    (hpush : (state.loops (loopOf threadnum request.conn)).tasks.push request = some tasks) :
    Inv threadnum [] (state.setLoop (loopOf threadnum request.conn)
      { state.loops (loopOf threadnum request.conn) with tasks }) := by
  obtain ⟨-, rfl⟩ := EventLoop.push_eq_some hpush
  refine hinv.withLoop (fun task htask ↦ ?_) fun conn ↦ ?_
  · rcases List.mem_append.mp htask with hbefore | hnew
    · exact hinv.own _ task hbefore
    · rw [List.mem_singleton.mp hnew]
  · dsimp only
    rw [owedIn_concat, owedIn_cons]
    omega

/-- A loop takes the request in front of its task queue. -/
theorem Inv.pop (hinv : Inv threadnum [] state) {loop : ℕ} {request : Request}
    {tasks : EventLoop Request}
    (hpop : (state.loops loop).tasks.pop = some (request, tasks)) :
    Inv threadnum [request] (state.setLoop loop { state.loops loop with tasks }) := by
  obtain ⟨-, hqueue, -⟩ := EventLoop.pop_eq_some hpop
  refine hinv.withLoop (fun task htask ↦ ?_) fun conn ↦ ?_
  · exact hinv.own loop task (hqueue ▸ List.mem_cons_of_mem _ htask)
  · rw [hqueue, owedIn_cons, owedIn_cons]
    dsimp only
    omega

/-- `send_inloop` puts the reply to the request in hand into the output buffer. -/
theorem Inv.sendInloop {request : Request} {next : State}
    (hinv : Inv threadnum [request] state)
    (hstep : sendInloop threadnum state request = some next) : Inv threadnum [] next := by
  unfold OwedOutput.sendInloop at hstep
  split at hstep
  · cases hstep
  · rename_i connection hobject
    dsimp only at hstep
    split at hstep
    · cases hstep
    · rename_i changed ep hcall
      cases hstep
      have hassigned : Inv threadnum [] (state.assign request.conn changed) := by
        refine ⟨hinv.unbuilt_assign hobject, hinv.own, fun conn ↦ ?_⟩
        have hbalanced := hinv.balanced conn
        rw [owedIn_cons] at hbalanced
        change state.replied conn = state.accepted conn + state.dropped conn +
          ((state.assign request.conn changed).output conn).length +
            pending threadnum state conn + owedIn [] conn
        rw [output_assign, Connection.output_of_sendInloop hcall, ← output_of_objects hobject]
        split_ifs with hconn
        · subst hconn
          rw [if_pos rfl] at hbalanced
          rw [List.length_append, ← Request.size]
          omega
        · rw [if_neg (Ne.symm hconn)] at hbalanced
          omega
      exact hassigned.setLoop rfl

/-- The kernel accepts what is sent. -/
theorem Inv.sendClient {conn : Conn} {connection changed : Connection} {writen : ℤ}
    (hinv : Inv threadnum [] state) (hobject : state.objects conn = some connection)
    (hwriten : writen ≤ connection.outputbuffer.size)
    (houtput : changed.outputbuffer.buf = connection.unsent writen) :
    Inv threadnum [] { state.assign conn changed with
      accepted := credit state.accepted conn writen.toNat } := by
  refine ⟨hinv.unbuilt_assign hobject, hinv.own, fun other ↦ ?_⟩
  have hbalanced := hinv.balanced other
  change state.replied other = credit state.accepted conn writen.toNat other +
    state.dropped other + ((state.assign conn changed).output other).length +
      pending threadnum state other + owedIn [] other
  rw [output_assign, credit_apply, houtput]
  by_cases hconn : other = conn
  · subst hconn
    rw [output_of_objects hobject] at hbalanced
    rw [Buffer.size] at hwriten
    rw [if_pos rfl, if_pos rfl, Connection.unsent, List.length_drop]
    omega
  · rw [if_neg hconn, if_neg (Ne.symm hconn)]
    exact hbalanced

end Changes

/-! ### What a step does -/

/-- `onmessage` takes a message off the input buffer, and stamps its connection. -/
def State.stamp (state : State) (loop : ℕ) (conn : Conn) (connection : Connection) (now : ℤ) :
    State :=
  (state.assign conn { connection with lastTime := now }).setLoop loop
    { state.loops loop with phase := .reading conn true }

/-- What a step makes of a state. -/
inductive Effect (threadnum : ℕ) (state : State) : State → Prop
  | main (main : MainPhase) : Effect threadnum state { state with main }
  | build {fd : Fd} {connection : Connection} (ep : Epoll) (main : MainPhase) (live : Conn → Bool)
      (houtput : connection.outputbuffer.buf = []) :
      Effect threadnum state
        { (state.assign (fd, state.opened fd) connection).setLoop
            (loopOf threadnum (fd, state.opened fd))
            { state.loops (loopOf threadnum (fd, state.opened fd)) with ep } with
          main, live, opened := Function.update state.opened fd (state.opened fd + 1) }
  | assign {conn : Conn} {connection changed : Connection} (main : MainPhase)
      (hobject : state.objects conn = some connection)
      (houtput : changed.outputbuffer = connection.outputbuffer) :
      Effect threadnum state { state.assign conn changed with main }
  | evict (conn : Conn) (main : MainPhase) :
      Effect threadnum state { delete threadnum state conn with main }
  /-- A loop goes on, and is in no handler of a connection then. -/
  | loop {loop : ℕ} {io : IoLoop}
      (htasks : io.tasks.taskQueue = (state.loops loop).tasks.taskQueue)
      (hreported : ∀ conn revent, (.connection conn, revent) ∈ io.batch →
        (.connection conn, revent) ∈ (state.loops loop).batch ∨ loopOf threadnum conn = loop)
      (hphase : io.phase.conn? = none) : Effect threadnum state (state.setLoop loop io)
  | close {loop : ℕ} {conn : Conn} :
      Effect threadnum state
        (delete threadnum (state.setLoop loop { state.loops loop with phase := .between }) conn)
  | handleevent {loop : ℕ} {conn : Conn} {revent : EventMask} {rest : List (Pointer × EventMask)}
      {writen : ℤ} {next : State} (hphase : (state.loops loop).phase = .between)
      (hbatch : (state.loops loop).batch = (.connection conn, revent) :: rest)
      (hstep : handleevent (state.setLoop loop { state.loops loop with batch := rest }) loop conn
        revent writen = some next) : Effect threadnum state next
  | stamp {loop : ℕ} {conn : Conn} {draining : Bool} {connection : Connection} (now : ℤ)
      (hphase : (state.loops loop).phase = .reading conn draining)
      (hobject : state.objects conn = some connection) :
      Effect threadnum state (state.stamp loop conn connection now)
  | dispatch {loop : ℕ} {conn : Conn} {draining : Bool} {connection : Connection} {now : ℤ}
      {message : Bytes} {next : State} (hphase : (state.loops loop).phase = .reading conn draining)
      (hobject : state.objects conn = some connection)
      (hstep : handleMessage threadnum (state.stamp loop conn connection now)
        { connection with lastTime := now } ⟨conn, message⟩ = some next) :
      Effect threadnum state next
  | eof {loop : ℕ} {conn : Conn} {connection changed : Connection} (ep : Epoll)
      (hphase : (state.loops loop).phase = .reading conn false)
      (hobject : state.objects conn = some connection)
      (houtput : changed.outputbuffer = connection.outputbuffer) :
      Effect threadnum state
        { (state.assign conn changed).setLoop loop
            { state.loops loop with ep, phase := .closing conn .read } with
          atEof := Function.update state.atEof conn (state.replied conn, state.accepted conn) }
  | take {worker : ℕ} {pool : Tpl Task} (htake : state.pool.take worker = some pool) :
      Effect threadnum state { state with pool }
  | drop {worker : ℕ} {request : Request}
      (hthread : state.pool.threads[worker]? = some (.running (.handledata request))) :
      Effect threadnum state
        { state with
          pool := state.pool.put worker .waiting
          dropped := credit state.dropped request.conn request.size }
  | goOn {worker : ℕ} {request : Request}
      (hthread : state.pool.threads[worker]? = some (.running (.handledata request))) :
      Effect threadnum state
        { state with pool := state.pool.put worker (.running (.addtask request)) }
  | addtask {worker : ℕ} {request : Request} {tasks : EventLoop Request}
      (hthread : state.pool.threads[worker]? = some (.running (.addtask request)))
      (hpush : (state.loops (loopOf threadnum request.conn)).tasks.push request = some tasks) :
      Effect threadnum state
        { state.setLoop (loopOf threadnum request.conn)
            { state.loops (loopOf threadnum request.conn) with tasks } with
          pool := state.pool.put worker (.waking (loopOf threadnum request.conn)) }
  | wakeup {worker loop : ℕ} (hthread : state.pool.threads[worker]? = some (.waking loop)) :
      Effect threadnum state
        { state.setLoop loop
            { state.loops loop with tasks := (state.loops loop).tasks.wakeup } with
          pool := state.pool.put worker .waiting }
  | runTask {loop : ℕ} {request : Request} {tasks : EventLoop Request} {next : State}
      (hpop : (state.loops loop).tasks.pop = some (request, tasks))
      (hstep : sendInloop threadnum (state.setLoop loop { state.loops loop with tasks }) request =
        some next) : Effect threadnum state next

/-- Every step has one of these effects. -/
theorem effect_of_step {threadnum : ℕ} {timeout : ℤ} {state next : State} {label : Label}
    (hstep : step threadnum timeout state label = some next) : Effect threadnum state next := by
  cases label with
  | newconnection fd this now =>
    rw [step] at hstep
    split_ifs at hstep
    dsimp only at hstep
    split at hstep
    · cases hstep
    · rename_i connection ep hnew
      cases hstep
      refine .build ep _ _ ?_
      rw [Connection.new] at hnew
      split at hnew
      · cases hnew
      · cases hnew
        rfl
  | setcallback =>
    rw [step] at hstep
    split at hstep
    · rename_i conn count hmain
      split_ifs at hstep
      · rw [Option.map_eq_some_iff] at hstep
        obtain ⟨connection, hobject, rfl⟩ := hstep
        exact .assign _ hobject (Connection.outputbuffer_setcallback count true connection)
      · cases hstep
        exact .main _
    · cases hstep
  | timeout conn now =>
    rw [step] at hstep
    split at hstep
    · cases hstep
    · split_ifs at hstep
      cases hstep
      exact .main _
  | clear =>
    rw [step] at hstep
    split at hstep
    · rename_i conn count hmain
      split_ifs at hstep
      rw [Option.map_eq_some_iff] at hstep
      obtain ⟨connection, hobject, rfl⟩ := hstep
      exact .assign _ hobject (Connection.outputbuffer_setcallback count false connection)
    · cases hstep
  | evict =>
    rw [step] at hstep
    split at hstep
    · rename_i conn hmain
      cases hstep
      exact .evict conn _
    · cases hstep
  | epollWait loop reported =>
    rw [step, Option.ite_none_right_eq_some] at hstep
    obtain ⟨⟨hbetween, -, -, hreported⟩, hnext⟩ := hstep
    cases hnext
    refine .loop rfl (fun conn revent hmem ↦ .inr (hreported _ hmem).2) ?_
    exact congrArg Phase.conn? hbetween
  | handleevent loop writen =>
    rw [step] at hstep
    split at hstep
    · rename_i conn revent rest hphase hbatch
      exact .handleevent hphase hbatch hstep
    · rename_i revent rest hphase hbatch
      rw [Option.map_eq_some_iff] at hstep
      obtain ⟨tasks, htasks, rfl⟩ := hstep
      refine .loop ?_ (fun conn events hmem ↦ .inl ?_) rfl
      · rw [(EventLoop.handleWakeup_eq_some htasks).2]
      · exact hbatch ▸ List.mem_cons_of_mem _ hmem
    · cases hstep
  | handleMessage loop message now =>
    rw [step] at hstep
    dsimp only at hstep
    split at hstep
    · rename_i conn draining hphase
      split at hstep
      · cases hstep
      · rename_i connection hobject
        split_ifs at hstep
        · exact .dispatch hphase hobject hstep
        · cases hstep
          exact .stamp now hphase hobject
    · cases hstep
  | «return» loop =>
    rw [step] at hstep
    split at hstep
    · cases hstep
      exact .loop rfl (fun _ _ ↦ .inl) rfl
    · cases hstep
  | eof loop =>
    rw [step] at hstep
    split at hstep
    · rename_i conn hphase
      split at hstep
      · cases hstep
      · rename_i connection hobject
        split at hstep
        · cases hstep
        · rename_i clientchannel ep hremove
          cases hstep
          refine .eof ep hphase hobject ?_
          rfl
    · cases hstep
  | closeconnection loop =>
    rw [step] at hstep
    dsimp only at hstep
    split at hstep
    · rename_i conn callback hphase
      split at hstep
      · cases hstep
      · split_ifs at hstep
        · cases hstep
          exact .close
        · cases hstep
          exact .loop rfl (fun _ _ ↦ .inl) rfl
    · cases hstep
  | take worker =>
    rw [step, Option.map_eq_some_iff] at hstep
    obtain ⟨pool, htake, rfl⟩ := hstep
    exact .take htake
  | handledata worker =>
    rw [step] at hstep
    split at hstep
    · rename_i request hthread
      split at hstep
      · cases hstep
      · split at hstep
        · cases hstep
          exact .drop hthread
        · cases hstep
        · cases hstep
          exact .goOn hthread
    · cases hstep
  | addtask worker =>
    rw [step] at hstep
    split at hstep
    · rename_i request hthread
      dsimp only at hstep
      rw [Option.map_eq_some_iff] at hstep
      obtain ⟨tasks, hpush, rfl⟩ := hstep
      exact .addtask hthread hpush
    · cases hstep
  | wakeup worker =>
    rw [step] at hstep
    split at hstep
    · rename_i loop hthread
      cases hstep
      exact .wakeup hthread
    · cases hstep
  | runTask loop =>
    rw [step] at hstep
    dsimp only at hstep
    rw [Option.bind_eq_some_iff] at hstep
    obtain ⟨⟨request, tasks⟩, hpop, hstep⟩ := hstep
    exact .runTask hpop hstep
  | release loop =>
    rw [step, Option.map_eq_some_iff] at hstep
    obtain ⟨tasks, hrelease, rfl⟩ := hstep
    refine .loop ?_ (fun _ _ ↦ .inl) rfl
    rw [(EventLoop.release_eq_some hrelease).2.2]

/-! ### The balance after a step -/

section Steps

variable {threadnum : ℕ} {state next : State}

theorem Inv.stamp (hinv : Inv threadnum [] state) {loop : ℕ} {conn : Conn}
    {connection : Connection} {now : ℤ} (hobject : state.objects conn = some connection) :
    Inv threadnum [] (state.stamp loop conn connection now) := by
  refine Inv.setLoop (hinv.assign hobject ?_) ?_ <;> rfl

/-- `HandleMessage` keeps the balance. -/
theorem Inv.handleMessage (hinv : Inv threadnum [] state) {connection : Connection}
    {request : Request}
    (hstep : handleMessage threadnum state connection request = some next) :
    Inv threadnum [] next := by
  have hdispatched := hinv.dispatch request
  unfold OwedOutput.handleMessage at hstep
  dsimp only at hstep
  split at hstep
  · split at hstep
    · cases hstep
      exact hdispatched.drop
    · exact hdispatched.sendInloop hstep
    · cases hstep
  · cases hstep
    exact @Inv.enqueue threadnum _ (.handledata request) hdispatched

/-- The handler of the channel of a connection keeps the balance. -/
theorem Inv.handleevent (hinv : Inv threadnum [] state) {loop : ℕ} {conn : Conn}
    {revent : EventMask} {writen : ℤ}
    (hstep : handleevent state loop conn revent writen = some next) : Inv threadnum [] next := by
  unfold OwedOutput.handleevent at hstep
  dsimp only at hstep
  split at hstep
  · cases hstep
  · rename_i connection hobject
    split at hstep
    · cases hstep
      refine Inv.setLoop (hinv.assign hobject ?_) ?_ <;> rfl
    · cases hstep
      refine Inv.setLoop (hinv.assign hobject ?_) ?_ <;> rfl
    · cases hstep
      exact hinv.setLoop rfl
    · split_ifs at hstep with hwriten
      split at hstep
      · cases hstep
      · rename_i changed ep events hcall
        cases hstep
        have hsent := hinv.sendClient hobject (not_lt.mp (not_or.mp hwriten).2)
          (Connection.output_of_sendClient hcall)
        exact hsent.setLoop rfl

/-- Every effect keeps the balance. -/
theorem Inv.effect (hinv : Inv threadnum [] state) (heffect : Effect threadnum state next) :
    Inv threadnum [] next := by
  cases heffect with
  | main main => exact hinv.withMain main _
  | build ep main live houtput =>
    refine Inv.withMain ((hinv.build rfl houtput).setLoop ?_) main _
    rfl
  | assign main hobject houtput => exact (hinv.assign hobject houtput).withMain main _
  | evict conn main => exact (hinv.delete conn).withMain main _
  | loop htasks => exact hinv.setLoop htasks
  | @close loop conn =>
    have hreturned : Inv threadnum []
        (state.setLoop loop { state.loops loop with phase := .between }) := hinv.setLoop rfl
    exact hreturned.delete conn
  | @handleevent loop _ _ rest _ _ hphase hbatch hstep =>
    have hpopped : Inv threadnum []
        (state.setLoop loop { state.loops loop with batch := rest }) := hinv.setLoop rfl
    exact hpopped.handleevent hstep
  | stamp now hphase hobject => exact hinv.stamp hobject
  | dispatch hphase hobject hstep => exact (hinv.stamp hobject).handleMessage hstep
  | eof ep hphase hobject houtput =>
    refine Inv.withMain (Inv.setLoop (hinv.assign hobject houtput) ?_) _ _
    rfl
  | take htake => exact hinv.take htake
  | drop hthread => exact (hinv.finish hthread rfl).drop
  | goOn hthread => exact hinv.goOn hthread rfl
  | @addtask _ request _ hthread hpush =>
    have hfinished := @Inv.finish _ _ hinv _ _ (.waking (loopOf threadnum request.conn)) hthread rfl
    exact hfinished.push hpush
  | wakeup hthread =>
    have hreturned := @Inv.goOn _ _ hinv _ _ .waiting hthread rfl
    exact hreturned.setLoop rfl
  | runTask hpop hstep => exact (hinv.pop hpop).sendInloop hstep

end Steps

/-! ### A connection at the end of its input -/

/-- A loop has reports of its own connections only, and the counts of a connection are, until it is
destroyed, those of the end of its input. -/
structure Closing (threadnum : ℕ) (state : State) : Prop where
  reported : ∀ loop conn revent, (.connection conn, revent) ∈ (state.loops loop).batch →
    loopOf threadnum conn = loop
  handled : ∀ loop conn, (state.loops loop).phase.conn? = some conn → loopOf threadnum conn = loop
  ended : ∀ loop conn, (state.loops loop).phase = .closing conn .read →
    state.atEof conn = (state.replied conn, state.accepted conn)

section Closing

variable {threadnum : ℕ} {state next : State}

/-- A step that leaves the batches, the phases and the counts alone. -/
theorem Closing.of_same (hclosing : Closing threadnum state)
    (hbatch : ∀ loop, (next.loops loop).batch = (state.loops loop).batch)
    (hphase : ∀ loop, (next.loops loop).phase = (state.loops loop).phase)
    (hatEof : next.atEof = state.atEof) (hreplied : next.replied = state.replied)
    (haccepted : next.accepted = state.accepted) : Closing threadnum next where
  reported := fun loop conn revent hmem ↦
    hclosing.reported loop conn revent (by rwa [← hbatch])
  handled := fun loop conn hconn ↦ hclosing.handled loop conn (by rwa [← hphase])
  ended := fun loop conn hconn ↦ by
    rw [hphase] at hconn
    rw [hatEof, hreplied, haccepted]
    exact hclosing.ended loop conn hconn

theorem batch_setLoop (loop : ℕ) (io : IoLoop) (hbatch : io.batch = (state.loops loop).batch)
    (other : ℕ) : ((state.setLoop loop io).loops other).batch = (state.loops other).batch := by
  rw [State.setLoop]
  dsimp only
  by_cases hother : other = loop
  · rw [hother, Function.update_self, hbatch]
  · rw [Function.update_of_ne hother]

theorem phase_setLoop (loop : ℕ) (io : IoLoop) (hphase : io.phase = (state.loops loop).phase)
    (other : ℕ) : ((state.setLoop loop io).loops other).phase = (state.loops other).phase := by
  rw [State.setLoop]
  dsimp only
  by_cases hother : other = loop
  · rw [hother, Function.update_self, hphase]
  · rw [Function.update_of_ne hother]

/-- A loop goes on, in a batch and with a handler that are its own. -/
theorem Closing.setLoop (hclosing : Closing threadnum state) {loop : ℕ} {io : IoLoop}
    (hreported : ∀ conn revent, (.connection conn, revent) ∈ io.batch →
      loopOf threadnum conn = loop)
    (hhandled : ∀ conn, io.phase.conn? = some conn → loopOf threadnum conn = loop)
    (hended : ∀ conn, io.phase = .closing conn .read →
      state.atEof conn = (state.replied conn, state.accepted conn)) :
    Closing threadnum (state.setLoop loop io) := by
  have hio : ∀ other, (state.setLoop loop io).loops other =
      if other = loop then io else state.loops other := fun other ↦ Function.update_apply _ _ _ _
  refine ⟨fun other conn revent hmem ↦ ?_, fun other conn hconn ↦ ?_, fun other conn hconn ↦ ?_⟩
  · rw [hio] at hmem
    split_ifs at hmem with hother
    · rw [hother]
      exact hreported conn revent hmem
    · exact hclosing.reported other conn revent hmem
  · rw [hio] at hconn
    split_ifs at hconn with hother
    · rw [hother]
      exact hhandled conn hconn
    · exact hclosing.handled other conn hconn
  · rw [hio] at hconn
    split_ifs at hconn with hother
    · exact hended conn hconn
    · exact hclosing.ended other conn hconn

/-- The loop of a connection that is not at the end of its input counts something for it. -/
theorem Closing.count (hclosing : Closing threadnum state) (conn : Conn)
    (hphase : ∀ other, (state.loops (loopOf threadnum conn)).phase ≠ .closing other .read)
    {replied accepted : Conn → ℕ} {atEof : Conn → ℕ × ℕ}
    (hothers : ∀ other, other ≠ conn → replied other = state.replied other ∧
      accepted other = state.accepted other ∧ atEof other = state.atEof other) :
    Closing threadnum { state with replied, accepted, atEof } := by
  refine ⟨hclosing.reported, hclosing.handled, fun loop other hother ↦ ?_⟩
  have hloop := hclosing.handled loop other
    ((congrArg Phase.conn? hother).trans rfl)
  have hne : other ≠ conn := by
    rintro rfl
    rw [hloop] at hphase
    exact hphase other hother
  obtain ⟨hreplied, haccepted, hatEof⟩ := hothers other hne
  dsimp only
  rw [hreplied, haccepted, hatEof]
  exact hclosing.ended loop other hother

theorem Closing.sendInloop (hclosing : Closing threadnum state) {request : Request}
    (hstep : sendInloop threadnum state request = some next) : Closing threadnum next := by
  unfold OwedOutput.sendInloop at hstep
  split at hstep
  · cases hstep
  · dsimp only at hstep
    split at hstep
    · cases hstep
    · cases hstep
      exact hclosing.of_same (batch_setLoop _ _ rfl) (phase_setLoop _ _ rfl) rfl rfl rfl

/-- `HandleMessage` counts a reply for a connection whose loop is in `onmessage`. -/
theorem Closing.handleMessage (hclosing : Closing threadnum state) {connection : Connection}
    {request : Request} {draining : Bool}
    (hphase : (state.loops (loopOf threadnum request.conn)).phase = .reading request.conn draining)
    (hstep : handleMessage threadnum state connection request = some next) :
    Closing threadnum next := by
  have hreplied : Closing threadnum
      { state with replied := credit state.replied request.conn request.size } := by
    refine hclosing.count request.conn (fun other h ↦ ?_) fun other hne ↦ ?_
    · cases hphase.symm.trans h
    · exact ⟨Function.update_of_ne hne _ _, rfl, rfl⟩
  unfold OwedOutput.handleMessage at hstep
  dsimp only at hstep
  split at hstep
  · split at hstep
    · cases hstep
      exact hreplied.of_same (fun _ ↦ rfl) (fun _ ↦ rfl) rfl rfl rfl
    · exact hreplied.sendInloop hstep
    · cases hstep
  · cases hstep
    exact hreplied.of_same (fun _ ↦ rfl) (fun _ ↦ rfl) rfl rfl rfl

/-- The handler of the channel of a connection begins, or sends. -/
theorem Closing.handleevent (hclosing : Closing threadnum state) {loop : ℕ} {conn : Conn}
    {revent : EventMask} {writen : ℤ} (hloop : loopOf threadnum conn = loop)
    (hphase : (state.loops loop).phase = .between)
    (hstep : handleevent state loop conn revent writen = some next) : Closing threadnum next := by
  have hbegin : ∀ phase : Phase, phase.conn? = some conn → phase ≠ .closing conn .read →
      Closing threadnum (state.setLoop loop { state.loops loop with phase }) := by
    intro phase hconn hread
    refine hclosing.setLoop (hclosing.reported loop) (fun other hother ↦ ?_) fun other hother ↦ ?_
    · cases hconn.symm.trans hother
      exact hloop
    · have hsame : phase.conn? = some other := congrArg Phase.conn? hother
      cases hconn.symm.trans hsame
      exact absurd hother hread
  unfold OwedOutput.handleevent at hstep
  dsimp only at hstep
  split at hstep
  · cases hstep
  · split at hstep
    · cases hstep
      exact (hbegin (.closing conn .close) rfl nofun).of_same (fun _ ↦ rfl) (fun _ ↦ rfl) rfl rfl
        rfl
    · cases hstep
      exact (hbegin (.closing conn .error) rfl nofun).of_same (fun _ ↦ rfl) (fun _ ↦ rfl) rfl rfl
        rfl
    · cases hstep
      exact hbegin (.reading conn false) rfl nofun
    · split_ifs at hstep
      split at hstep
      · cases hstep
      · cases hstep
        have hcounted : Closing threadnum
            { state with accepted := credit state.accepted conn writen.toNat } := by
          refine hclosing.count conn (fun other h ↦ ?_) fun other hne ↦ ?_
          · rw [hloop] at h
            cases hphase.symm.trans h
          · exact ⟨rfl, Function.update_of_ne hne _ _, rfl⟩
        exact hcounted.of_same (batch_setLoop _ _ rfl) (phase_setLoop _ _ rfl) rfl rfl rfl

theorem Closing.stamp (hclosing : Closing threadnum state) {loop : ℕ} {conn : Conn}
    {draining : Bool} {connection : Connection} {now : ℤ}
    (hphase : (state.loops loop).phase = .reading conn draining) :
    Closing threadnum (state.stamp loop conn connection now) := by
  have hdraining : Closing threadnum
      (state.setLoop loop { state.loops loop with phase := .reading conn true }) := by
    refine hclosing.setLoop (hclosing.reported loop) (fun other hother ↦ ?_) nofun
    cases hother
    exact hclosing.handled loop conn (congrArg Phase.conn? hphase)
  exact hdraining.of_same (fun _ ↦ rfl) (fun _ ↦ rfl) rfl rfl rfl

/-- Every effect keeps the counts of the connections at the end of their input. -/
theorem Closing.effect (hclosing : Closing threadnum state)
    (heffect : Effect threadnum state next) : Closing threadnum next := by
  cases heffect with
  | build | evict | addtask | wakeup =>
    exact hclosing.of_same (batch_setLoop _ _ rfl) (phase_setLoop _ _ rfl) rfl rfl rfl
  | main | assign | take | drop | goOn =>
    exact hclosing.of_same (fun _ ↦ rfl) (fun _ ↦ rfl) rfl rfl rfl
  | @loop loop io htasks hreported hphase =>
    refine hclosing.setLoop (fun conn revent hmem ↦ ?_) (fun conn hconn ↦ ?_) fun conn hconn ↦ ?_
    · exact (hreported conn revent hmem).elim (hclosing.reported loop conn revent) id
    · cases hphase.symm.trans hconn
    · cases hphase.symm.trans (congrArg Phase.conn? hconn)
  | @close loop conn =>
    have hreturned : Closing threadnum
        (state.setLoop loop { state.loops loop with phase := .between }) :=
      hclosing.setLoop (hclosing.reported loop) nofun nofun
    exact hreturned.of_same (batch_setLoop _ _ rfl) (phase_setLoop _ _ rfl) rfl rfl rfl
  | @handleevent loop conn revent rest _ _ hphase hbatch hstep =>
    have hloop : loopOf threadnum conn = loop :=
      hclosing.reported loop conn revent (hbatch ▸ List.mem_cons_self)
    have hpopped : Closing threadnum
        (state.setLoop loop { state.loops loop with batch := rest }) := by
      refine hclosing.setLoop (fun other events hmem ↦ ?_) (hclosing.handled loop)
        (hclosing.ended loop)
      exact hclosing.reported loop other events (hbatch ▸ List.mem_cons_of_mem _ hmem)
    have hbetween := phase_setLoop loop { state.loops loop with batch := rest } rfl loop
    exact hpopped.handleevent hloop (hbetween.trans hphase) hstep
  | stamp now hphase hobject => exact hclosing.stamp hphase
  | @dispatch loop conn _ connection now _ _ hphase hobject hstep =>
    have hreading : ((state.stamp loop conn connection now).loops
        (loopOf threadnum conn)).phase = .reading conn true := by
      rw [hclosing.handled loop conn (congrArg Phase.conn? hphase), State.stamp, State.setLoop]
      dsimp only
      rw [Function.update_self]
    exact (hclosing.stamp hphase).handleMessage hreading hstep
  | @eof loop conn connection changed ep hphase hobject houtput =>
    have hloop : loopOf threadnum conn = loop :=
      hclosing.handled loop conn (congrArg Phase.conn? hphase)
    have hcounted : Closing threadnum
        { state with
          atEof := Function.update state.atEof conn
            (state.replied conn, state.accepted conn) } := by
      refine hclosing.count conn (fun other h ↦ ?_) fun other hne ↦ ?_
      · rw [hloop] at h
        cases hphase.symm.trans h
      · exact ⟨rfl, rfl, Function.update_of_ne hne _ _⟩
    have hended := @Closing.setLoop threadnum _ hcounted loop
      { state.loops loop with ep, phase := .closing conn .read } (hclosing.reported loop)
      (fun other hother ↦ by cases hother; exact hloop)
      fun other hother ↦ by cases hother; exact Function.update_self _ _ _
    exact hended.of_same (fun _ ↦ rfl) (fun _ ↦ rfl) rfl rfl rfl
  | @runTask loop request tasks _ hpop hstep =>
    have hpopped : Closing threadnum (state.setLoop loop { state.loops loop with tasks }) :=
      hclosing.of_same (batch_setLoop _ _ rfl) (phase_setLoop _ _ rfl) rfl rfl rfl
    exact hpopped.sendInloop hstep

end Closing

/-! ### Runs -/

section Runs

variable {threadnum workers : ℕ} {timeout : ℤ}

/-- The invariant holds before the first connection. -/
theorem Initial.inv {state : State} (hinitial : Initial workers state) :
    Inv threadnum [] state := by
  refine ⟨fun conn _ ↦ ?_, fun loop request hrequest ↦ ?_, fun conn ↦ ?_⟩
  · rw [hinitial.objects]
  · rw [(hinitial.loops loop).1] at hrequest
    cases hrequest
  · rw [pending, State.output, (hinitial.loops _).1, hinitial.objects, hinitial.pool,
      hinitial.replied, hinitial.accepted, hinitial.dropped, Tpl.running_new]
    rfl

theorem Initial.closing {state : State} (hinitial : Initial workers state) :
    Closing threadnum state := by
  refine ⟨fun loop conn revent hmem ↦ ?_, fun loop conn hconn ↦ ?_, fun loop conn hconn ↦ ?_⟩
  · rw [(hinitial.loops loop).2.1] at hmem
    cases hmem
  · rw [(hinitial.loops loop).2.2] at hconn
    cases hconn
  · cases (hinitial.loops loop).2.2.symm.trans hconn

/-- The server before the first connection. -/
def start (workers : ℕ) : State where
  main := .idle
  pool := .new workers
  loops := fun _ ↦ ⟨.epollCreate, .new, [], .between⟩
  objects := fun _ ↦ none
  opened := fun _ ↦ 0
  live := fun _ ↦ false
  replied := fun _ ↦ 0
  accepted := fun _ ↦ 0
  dropped := fun _ ↦ 0
  atEof := fun _ ↦ (0, 0)

theorem start_initial (workers : ℕ) : Initial workers (start workers) :=
  ⟨rfl, rfl, fun _ ↦ ⟨rfl, rfl, rfl⟩, rfl, rfl, rfl, rfl⟩

end Runs

end Reactor.OwedOutput
