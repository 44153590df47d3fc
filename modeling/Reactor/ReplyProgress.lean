import Reactor.ReplyPipeline
import Reactor.Library.Measure
import Mathlib.Algebra.Order.BigOperators.Group.Finset

/-!
# Replies that are pending get sent

The loops and the workers of `ReplyPipeline` on their own: no message is dispatched, and `::send` is
called only when it accepts something (`Internal`). It can be called as long as there is output:
which reports of the writable event a loop gets is what `EdgeTriggering` is about. A worker in
`addtask` waits for the mutex of the task queue, which `handle_wakeup` holds while it runs tasks,
and a loop waits for its `eventfd`. `Settling` is why nobody waits for ever: a task in a queue has a
loop that is draining it, an `eventfd` that can be read, or a worker that is about to write it.

While anything is pending some internal step is enabled (`exists_step_of_pending`). Each of them
lowers `work`, but for the calls of `::send`, which lower what is `unsent`. So the threads, in
whatever order they are scheduled and however the replies are cut, have a bounded number of steps to
make, and when they have come to rest the kernel has accepted the reply to every request
(`settles`).
-/

set_option autoImplicit false
set_option relaxedAutoImplicit false

namespace Reactor.ReplyProgress

open Library ReplyPipeline

/-- The number of the loop of a connection, `clientfd % threadnum`. -/
def shard (threadnum : ℕ) (fd : Fd) : ℕ := fd % threadnum

/-- The step is one of a worker, or one of a loop in `handle_wakeup`, or a call of `::send` that
accepts something. -/
def Internal : Label → Prop
  | .handleMessage _ _ => False
  | .sendClient _ writen => 0 < writen
  | .take _ | .handledata _ | .wakeup _ | .handleWakeup _ | .runTask _ | .release _ => True

/-! ### What a step does to the queues -/

/-- What a step makes of the pool and of the loops. -/
inductive Moves (loopOf : Fd → ℕ) (state : State) :
    Label → Tpl Job → (ℕ → EventLoop Reply) → Prop
  | enqueue {fd : Fd} {message : Bytes} (job : Job) :
      Moves loopOf state (.handleMessage fd message) (state.pool.enqueue job) state.loops
  | answer {fd : Fd} {message : Bytes} :
      Moves loopOf state (.handleMessage fd message) state.pool state.loops
  | send {fd : Fd} {writen : ℤ} :
      Moves loopOf state (.sendClient fd writen) state.pool state.loops
  | take {worker : ℕ} {job : Job} {rest : List Job}
      (hthread : state.pool.threads[worker]? = some .waiting) (hq : state.pool.q = job :: rest) :
      Moves loopOf state (.take worker)
        ({ state.pool with q := rest }.put worker (.running job)) state.loops
  | handOver {worker : ℕ} {job : Job} (reply : Reply)
      (hthread : state.pool.threads[worker]? = some (.running job)) :
      Moves loopOf state (.handledata worker) (state.pool.put worker (.waking (loopOf job.fd)))
        (Function.update state.loops (loopOf job.fd)
          { state.loops (loopOf job.fd) with
            taskQueue := (state.loops (loopOf job.fd)).taskQueue ++ [reply] })
  | wakeup {worker loop : ℕ} (hthread : state.pool.threads[worker]? = some (.waking loop)) :
      Moves loopOf state (.wakeup worker) (state.pool.put worker .waiting)
        (Function.update state.loops loop (state.loops loop).wakeup)
  | handleWakeup {loop : ℕ} (hready : 0 < (state.loops loop).eventfd)
      (hfree : (state.loops loop).draining = false) :
      Moves loopOf state (.handleWakeup loop) state.pool
        (Function.update state.loops loop
          { state.loops loop with eventfd := 0, draining := true })
  | runTask {loop : ℕ} {reply : Reply} {rest : List Reply}
      (hdraining : (state.loops loop).draining = true)
      (hqueue : (state.loops loop).taskQueue = reply :: rest) :
      Moves loopOf state (.runTask loop) state.pool
        (Function.update state.loops loop { state.loops loop with taskQueue := rest })
  | release {loop : ℕ} (hdraining : (state.loops loop).draining = true)
      (hqueue : (state.loops loop).taskQueue = []) :
      Moves loopOf state (.release loop) state.pool
        (Function.update state.loops loop { state.loops loop with draining := false })

section Steps

variable {loopOf : Fd → ℕ} {workers : ℕ} {state next : State} {label : Label}

/-- `send_inloop` changes neither the pool nor the loops. -/
theorem queues_of_sendInloop {reply : Reply} (hsend : sendInloop loopOf state reply = some next) :
    next.pool = state.pool ∧ next.loops = state.loops ∧ next.dispatched = state.dispatched := by
  rw [sendInloop] at hsend
  split at hsend
  · cases hsend
  · cases hsend
    exact ⟨rfl, rfl, rfl⟩

/-- Every step is one of the moves, and an internal one dispatches nothing. -/
theorem moves_of_step (hinv : Inv loopOf workers state)
    (hstep : step loopOf state label = some next) :
    Moves loopOf state label next.pool next.loops ∧
      (Internal label → next.dispatched = state.dispatched) := by
  cases label with
  | handleMessage fd message =>
    refine ⟨?_, fun hinternal ↦ hinternal.elim⟩
    rw [step] at hstep
    dsimp only at hstep
    split_ifs at hstep with hdraining hsize
    · rw [sendmessage_inloop (hinv.connected fd : _ = false), Option.map_map,
        Option.map_eq_some_iff] at hstep
      obtain ⟨after, hsend, rfl⟩ := hstep
      obtain ⟨hpool, hloops, -⟩ := queues_of_sendInloop hsend
      dsimp only [Function.comp_apply]
      rw [hpool, hloops]
      exact .answer
    · cases hstep
      exact .enqueue _
  | take worker =>
    rw [step, Option.map_eq_some_iff] at hstep
    obtain ⟨pool, htake, rfl⟩ := hstep
    obtain ⟨job, rest, hthread, hq, rfl⟩ := Tpl.take_eq_some htake
    exact ⟨.take hthread hq, fun _ ↦ rfl⟩
  | handledata worker =>
    rw [step] at hstep
    split at hstep
    · rename_i job hthread
      rw [Option.map_eq_some_iff] at hstep
      obtain ⟨⟨after, pushed⟩, hsend, rfl⟩ := hstep
      rw [sendmessage_addtask (hinv.connected job.fd), Option.map_eq_some_iff] at hsend
      obtain ⟨loop, hpush, hafter⟩ := hsend
      obtain ⟨-, rfl⟩ := EventLoop.push_eq_some hpush
      cases hafter
      exact ⟨.handOver _ hthread, fun _ ↦ rfl⟩
    · cases hstep
  | wakeup worker =>
    rw [step] at hstep
    split at hstep
    · rename_i loop hthread
      cases hstep
      exact ⟨.wakeup hthread, fun _ ↦ rfl⟩
    · cases hstep
  | handleWakeup loop =>
    rw [step, Option.map_eq_some_iff] at hstep
    obtain ⟨after, hhandle, rfl⟩ := hstep
    have hready := EventLoop.eventfd_of_handleWakeup hhandle
    obtain ⟨hfree, rfl⟩ := EventLoop.handleWakeup_eq_some hhandle
    exact ⟨.handleWakeup hready hfree, fun _ ↦ rfl⟩
  | runTask loop =>
    rw [step, Option.bind_eq_some_iff] at hstep
    obtain ⟨⟨reply, rest⟩, hpop, hsend⟩ := hstep
    obtain ⟨hdraining, hqueue, hrest⟩ := EventLoop.pop_eq_some hpop
    obtain ⟨hpool, hloops, hdispatched⟩ := queues_of_sendInloop hsend
    rw [hpool, hloops, hdispatched]
    dsimp only at hrest ⊢
    rw [hrest]
    exact ⟨.runTask hdraining hqueue, fun _ ↦ rfl⟩
  | release loop =>
    rw [step, Option.map_eq_some_iff] at hstep
    obtain ⟨after, hrelease, rfl⟩ := hstep
    obtain ⟨hdraining, hqueue, rfl⟩ := EventLoop.release_eq_some hrelease
    exact ⟨.release hdraining hqueue, fun _ ↦ rfl⟩
  | sendClient fd writen =>
    rw [step] at hstep
    split_ifs at hstep
    split at hstep
    · cases hstep
    · cases hstep
      exact ⟨.send, fun _ ↦ rfl⟩

end Steps

/-! ### Nobody waits for ever -/

/-- What keeps the threads going, for a number of loops. -/
structure Settling (threadnum : ℕ) (pool : Tpl Job) (loops : ℕ → EventLoop Reply) : Prop where
  idle : ∀ loop, threadnum ≤ loop → loops loop = .new
  waking : ∀ loop, .waking loop ∈ pool.threads → loop < threadnum
  /-- A task in the queue of a loop is not forgotten. -/
  noticed : ∀ loop, (loops loop).taskQueue ≠ [] →
    (loops loop).draining = true ∨ 0 < (loops loop).eventfd ∨ .waking loop ∈ pool.threads

/-- How many steps a worker has before it, with those that it causes. -/
def threadWork : WorkThread Job → ℕ
  | .waiting => 0
  | .waking _ => 3
  | .running _ => 5

/-- How many steps a loop has before it. -/
def loopWork (loop : EventLoop Reply) : ℕ :=
  loop.taskQueue.length + (if 0 < loop.eventfd then 2 else 0) + if loop.draining then 1 else 0

/-- How many internal steps are possible at most, but for the calls of `::send`. -/
def work (threadnum : ℕ) (pool : Tpl Job) (loops : ℕ → EventLoop Reply) : ℕ :=
  6 * pool.q.length + (pool.threads.map threadWork).sum +
    ∑ loop ∈ Finset.range threadnum, loopWork (loops loop)

/-- The bytes of the replies to all requests of a connection. -/
def replySize (state : State) (fd : Fd) : ℕ :=
  ((requests state fd).flatMap fun request ↦ handledata request.1).length

/-- How many of them the kernel has not accepted. -/
def unsent (state : State) (fd : Fd) : ℕ := replySize state fd - (state.accepted fd).length

/-- Nothing is pending: the workers wait, the loops have nothing to run, and the connections nothing
to send. -/
structure AtRest (state : State) : Prop where
  q : state.pool.q = []
  threads : ∀ thread ∈ state.pool.threads, thread = .waiting
  loops : ∀ loop, (state.loops loop).taskQueue = [] ∧ (state.loops loop).eventfd = 0 ∧
    (state.loops loop).draining = false
  output : ∀ fd, (state.connections fd).outputbuffer.buf = []

section Threads

variable {pool : Tpl Job} {worker : ℕ} {thread : WorkThread Job}

/-- A thread that goes on from waking a loop or not leaves the others waking. -/
theorem waking_of_put {other : WorkThread Job} {loop : ℕ}
    (hmem : .waking loop ∈ (pool.put worker other).threads) :
    .waking loop ∈ pool.threads ∨ other = .waking loop := by
  rcases List.mem_or_eq_of_mem_set hmem with hold | hnew
  · exact .inl hold
  · exact .inr hnew.symm

/-- A thread that is not waking a loop leaves the threads that are. -/
theorem waking_put (hthread : pool.threads[worker]? = some thread) (other : WorkThread Job)
    {loop : ℕ} (hne : thread ≠ .waking loop) (hmem : .waking loop ∈ pool.threads) :
    .waking loop ∈ (pool.put worker other).threads := by
  obtain ⟨index, hindex⟩ := List.mem_iff_getElem?.mp hmem
  have hother : index ≠ worker := by
    rintro rfl
    rw [hthread] at hindex
    exact hne (Option.some.inj hindex)
  refine List.mem_of_getElem? (i := index) ?_
  rw [Tpl.put, List.getElem?_set_ne hother.symm]
  exact hindex

/-- The thread that goes on is one of the threads after it. -/
theorem mem_put (hthread : pool.threads[worker]? = some thread) (other : WorkThread Job) :
    other ∈ (pool.put worker other).threads := by
  obtain ⟨hworker, -⟩ := List.getElem?_eq_some_iff.mp hthread
  exact List.mem_set hworker other

/-- What a thread that goes on does to the work. -/
theorem work_put (threadnum : ℕ) (loops : ℕ → EventLoop Reply)
    (hthread : pool.threads[worker]? = some thread) (other : WorkThread Job) :
    work threadnum (pool.put worker other) loops + threadWork thread =
      work threadnum pool loops + threadWork other := by
  have hsum := sum_map_set threadWork hthread other
  simp only [work, Tpl.put]
  omega

end Threads

/-- A write of the `eventfd` causes two steps at most. -/
theorem loopWork_wakeup_le (loop : EventLoop Reply) :
    loopWork loop.wakeup ≤ loopWork loop + 2 := by
  have hready := EventLoop.eventfd_wakeup_pos loop
  rw [loopWork, if_pos hready, EventLoop.taskQueue_wakeup, EventLoop.draining_wakeup, loopWork]
  omega

/-- What a loop that goes on does to the work. -/
theorem work_update {threadnum loop : ℕ} (hloop : loop < threadnum) (pool : Tpl Job)
    (loops : ℕ → EventLoop Reply) (next : EventLoop Reply) :
    work threadnum pool (Function.update loops loop next) + loopWork (loops loop) =
      work threadnum pool loops + loopWork next := by
  have hsum := sum_range_update loopWork loops hloop next
  rw [work, work]
  omega

section Invariant

variable {threadnum workers : ℕ} {state next : State} {label : Label} {pool : Tpl Job}
  {loops : ℕ → EventLoop Reply}

/-- A change of one loop keeps the threads going, when a task left in its queue is noticed. -/
theorem Settling.update (hsettling : Settling threadnum pool loops) {poolNext : Tpl Job} {loop : ℕ}
    {io : EventLoop Reply} (hloop : loop < threadnum)
    (hwaking : ∀ other, .waking other ∈ poolNext.threads → other < threadnum)
    (hothers : ∀ other, other ≠ loop → .waking other ∈ pool.threads →
      .waking other ∈ poolNext.threads)
    (hnoticed : io.taskQueue ≠ [] →
      io.draining = true ∨ 0 < io.eventfd ∨ .waking loop ∈ poolNext.threads) :
    Settling threadnum poolNext (Function.update loops loop io) := by
  refine ⟨fun other hother ↦ ?_, hwaking, fun other htasks ↦ ?_⟩
  · have hne : other ≠ loop := by omega
    rw [Function.update_of_ne hne]
    exact hsettling.idle other hother
  · by_cases hsame : other = loop
    · subst hsame
      rw [Function.update_self] at htasks ⊢
      exact hnoticed htasks
    · rw [Function.update_of_ne hsame] at htasks ⊢
      rcases hsettling.noticed other htasks with hdraining | hready | hmem
      · exact .inl hdraining
      · exact .inr (.inl hready)
      · exact .inr (.inr (hothers other hsame hmem))

/-- A loop that is not as it was built is one of the loops of the server. -/
theorem Settling.lt (hsettling : Settling threadnum pool loops) {loop : ℕ}
    (hbusy : loops loop ≠ .new) : loop < threadnum := by
  by_contra hge
  exact hbusy (hsettling.idle loop (Nat.le_of_not_lt hge))

/-- Every move keeps the threads going. -/
theorem Settling.moves (hsettling : Settling threadnum state.pool state.loops)
    (hthreadnum : 0 < threadnum) (hmoves : Moves (shard threadnum) state label pool loops) :
    Settling threadnum pool loops := by
  cases hmoves with
  | enqueue job => exact { hsettling with }
  | answer | send => exact hsettling
  | @take worker job rest hthread hq =>
    refine ⟨hsettling.idle, fun loop hmem ↦ ?_, fun loop htasks ↦ ?_⟩
    · rcases waking_of_put hmem with hold | hnew
      · exact hsettling.waking loop hold
      · cases hnew
    · refine (hsettling.noticed loop htasks).imp id (Or.imp id fun hmem ↦ ?_)
      exact waking_put hthread _ (by simp) hmem
  | @handOver worker job reply hthread =>
    have hloop : shard threadnum job.fd < threadnum := Nat.mod_lt _ hthreadnum
    refine hsettling.update hloop (fun other hmem ↦ ?_) (fun other _ hmem ↦ ?_) fun _ ↦ ?_
    · rcases waking_of_put hmem with hold | hnew
      · exact hsettling.waking other hold
      · cases hnew
        exact hloop
    · exact waking_put hthread _ (by simp) hmem
    · exact .inr (.inr (mem_put hthread _))
  | @wakeup worker loop hthread =>
    have hloop := hsettling.waking loop (List.mem_of_getElem? hthread)
    refine hsettling.update hloop (fun other hmem ↦ ?_) (fun other hne hmem ↦ ?_) fun _ ↦ ?_
    · rcases waking_of_put hmem with hold | hnew
      · exact hsettling.waking other hold
      · cases hnew
    · refine waking_put hthread _ ?_ hmem
      rintro heq
      exact hne (WorkThread.waking.inj heq).symm
    · exact .inr (.inl (EventLoop.eventfd_wakeup_pos _))
  | @handleWakeup loop hready hfree =>
    have hloop : loop < threadnum := hsettling.lt fun hnew ↦ by
      rw [hnew] at hready
      exact Nat.lt_irrefl 0 hready
    exact hsettling.update hloop hsettling.waking (fun _ _ hmem ↦ hmem) fun _ ↦ .inl rfl
  | @runTask loop reply rest hdraining hqueue =>
    have hloop : loop < threadnum := hsettling.lt fun hnew ↦ by
      rw [hnew] at hdraining
      cases hdraining
    exact hsettling.update hloop hsettling.waking (fun _ _ hmem ↦ hmem) fun _ ↦ .inl hdraining
  | @release loop hdraining hqueue =>
    have hloop : loop < threadnum := hsettling.lt fun hnew ↦ by
      rw [hnew] at hdraining
      cases hdraining
    exact hsettling.update hloop hsettling.waking (fun _ _ hmem ↦ hmem)
      fun hne ↦ absurd hqueue hne

/-- Every internal move lowers the work, but for a call of `::send`, which keeps it. -/
theorem work_lt_of_moves (hsettling : Settling threadnum state.pool state.loops)
    (hthreadnum : 0 < threadnum) (hinternal : Internal label)
    (hsend : ∀ fd writen, label ≠ .sendClient fd writen)
    (hmoves : Moves (shard threadnum) state label pool loops) :
    work threadnum pool loops < work threadnum state.pool state.loops := by
  cases hmoves with
  | enqueue | answer => exact hinternal.elim
  | send => exact absurd rfl (hsend _ _)
  | @take worker job rest hthread hq =>
    have hsum := sum_map_set threadWork hthread (.running job)
    simp only [work, Tpl.put, hq, List.length_cons]
    simp only [threadWork] at hsum
    omega
  | @handOver worker job reply hthread =>
    have hloop : shard threadnum job.fd < threadnum := Nat.mod_lt _ hthreadnum
    have hput := work_put threadnum state.loops hthread (.waking (shard threadnum job.fd))
    generalize shard threadnum job.fd = loop at *
    dsimp only
    have hupdate := work_update hloop (state.pool.put worker (.waking loop)) state.loops
      ⟨(state.loops loop).taskQueue ++ [reply], (state.loops loop).eventfd,
        (state.loops loop).draining⟩
    simp only [threadWork, loopWork, List.length_append, List.length_singleton] at hput hupdate
    omega
  | @wakeup worker loop hthread =>
    have hloop := hsettling.waking loop (List.mem_of_getElem? hthread)
    have hput := work_put threadnum state.loops hthread .waiting
    have hupdate := work_update hloop (state.pool.put worker .waiting) state.loops
      (state.loops loop).wakeup
    have hweight := loopWork_wakeup_le (state.loops loop)
    simp only [threadWork] at hput
    omega
  | @handleWakeup loop hready hfree =>
    have hloop : loop < threadnum := hsettling.lt fun hnew ↦ by
      rw [hnew] at hready
      exact Nat.lt_irrefl 0 hready
    have hupdate := work_update hloop state.pool state.loops
      ⟨(state.loops loop).taskQueue, 0, true⟩
    simp only [loopWork, hfree, if_pos hready, Nat.lt_irrefl, if_true, if_false,
      Bool.false_eq_true] at hupdate
    dsimp only
    omega
  | @runTask loop reply rest hdraining hqueue =>
    have hloop : loop < threadnum := hsettling.lt fun hnew ↦ by
      rw [hnew] at hdraining
      cases hdraining
    have hupdate := work_update hloop state.pool state.loops
      ⟨rest, (state.loops loop).eventfd, (state.loops loop).draining⟩
    simp only [loopWork, hqueue, List.length_cons] at hupdate
    dsimp only
    omega
  | @release loop hdraining hqueue =>
    have hloop : loop < threadnum := hsettling.lt fun hnew ↦ by
      rw [hnew] at hdraining
      cases hdraining
    have hupdate := work_update hloop state.pool state.loops
      ⟨(state.loops loop).taskQueue, (state.loops loop).eventfd, false⟩
    simp only [loopWork, hdraining, if_true, if_false, Bool.false_eq_true] at hupdate
    dsimp only
    omega

end Invariant

/-! ### What is left to send -/

section Unsent

variable {loopOf : Fd → ℕ} {workers : ℕ} {state next : State} {label : Label}

/-- Only a call of `::send` makes the kernel accept anything. -/
theorem accepted_of_effect (heffect : Effect loopOf state label next)
    (hsend : ∀ fd writen, label ≠ .sendClient fd writen) : next.accepted = state.accepted := by
  cases heffect with
  | answer _ hanswers | runTask _ hanswers =>
    cases hanswers
    rfl
  | send => exact absurd rfl (hsend _ _)
  | _ => rfl

/-- The kernel has accepted, of each connection, no more than the replies to its requests, and what
is in its output buffer comes on top. -/
theorem length_accepted_le (hinv : Inv loopOf workers state) {fd : Fd}
    (hconserved : (pipeline loopOf state fd).Conserved) :
    (state.accepted fd).length + (state.connections fd).outputbuffer.buf.length ≤
      replySize state fd := by
  have hsubperm : (state.appended fd).Subperm (requests state fd) :=
    (hconserved.delivered_nodup (requests_nodup state fd)).subperm hconserved.delivered_subset
  obtain ⟨replied, hperm, hsublist⟩ := hsubperm
  rw [← List.length_append, hinv.stream fd, replySize, List.length_flatMap, List.length_flatMap,
    ← (hperm.map fun request ↦ (handledata request.1).length).sum_eq]
  exact (hsublist.map _).sum_le_sum fun _ _ ↦ Nat.zero_le _

/-- A call of `::send` that accepts something lowers what is left to send of its connection, and
keeps that of the others. -/
theorem unsent_of_send (hinv : Inv loopOf workers state) {fd : Fd} {writen : ℤ}
    (hconserved : (pipeline loopOf state fd).Conserved) (hwriten : 0 < writen)
    (hstep : step loopOf state (.sendClient fd writen) = some next) :
    next.pool = state.pool ∧ next.loops = state.loops ∧ next.dispatched = state.dispatched ∧
      unsent next fd < unsent state fd ∧
        ∀ other, other ≠ fd → unsent next other = unsent state other := by
  have hle := length_accepted_le hinv hconserved
  rw [step] at hstep
  split_ifs at hstep with hrefused
  split at hstep
  · cases hstep
  · cases hstep
    have hsize : writen ≤ (state.connections fd).outputbuffer.buf.length :=
      not_lt.mp fun hlt ↦ hrefused (.inr (.inr hlt))
    refine ⟨rfl, rfl, rfl, ?_, fun other hother ↦ ?_⟩
    · change replySize state fd -
        (Function.update state.accepted fd (state.accepted fd ++ _) fd).length < _
      rw [Function.update_self, List.length_append, Connection.taken, List.length_take, unsent]
      omega
    · change replySize state other - (Function.update state.accepted fd _ other).length = _
      rw [Function.update_of_ne hother, unsent]

/-- Finitely many connections have dispatched anything. -/
theorem exists_served (hreach : (system loopOf workers).Reachable state) :
    ∃ served : Finset Fd, ∀ fd, fd ∉ served → state.dispatched fd = [] := by
  have hboth : Inv loopOf workers state ∧
      ∃ served : Finset Fd, ∀ fd, fd ∉ served → state.dispatched fd = [] := by
    refine hreach.invariant (fun reached ↦ Inv loopOf workers reached ∧
      ∃ served : Finset Fd, ∀ fd, fd ∉ served → reached.dispatched fd = []) ?_ ?_
    · intro start hstart
      refine ⟨hstart.inv, ∅, fun fd _ ↦ ?_⟩
      rw [hstart.dispatched]
    · rintro before label after ⟨hinv, served, hserved⟩ - hstep
      have heffect := effect_of_step hinv hstep
      refine ⟨hinv.effect heffect, ?_⟩
      have hcounted : ∀ fd message other, other ∉ insert fd served →
          (counted before fd message).dispatched other = [] := by
        intro fd message other hother
        obtain ⟨hne, hnot⟩ := not_or.mp (Finset.mem_insert.not.mp hother)
        exact (Function.update_of_ne hne _ _).trans (hserved other hnot)
      cases heffect with
      | enqueue fd message => exact ⟨insert fd served, hcounted fd message⟩
      | @answer fd message _ _ hanswers =>
        cases hanswers
        exact ⟨insert fd served, hcounted fd message⟩
      | runTask _ hanswers =>
        cases hanswers
        exact ⟨served, hserved⟩
      | _ => exact ⟨served, hserved⟩
  exact hboth.2

end Unsent

/-! ### While anything is pending some thread can go on -/

section Progress

variable {loopOf : Fd → ℕ} {threadnum workers : ℕ} {state : State}

/-- A loop that is draining runs a task or returns. -/
theorem exists_step_of_draining (hinv : Inv loopOf workers state) {loop : ℕ}
    (hdraining : (state.loops loop).draining = true) :
    ∃ label, Internal label ∧ (step loopOf state label).isSome = true := by
  cases hqueue : (state.loops loop).taskQueue with
  | nil =>
    refine ⟨.release loop, trivial, ?_⟩
    rw [step, EventLoop.release, if_pos ⟨hdraining, hqueue⟩]
    rfl
  | cons reply rest =>
    have hpop : (state.loops loop).pop =
        some (reply, ⟨rest, (state.loops loop).eventfd, true⟩) := by
      rw [EventLoop.pop, hdraining, hqueue]
    obtain ⟨connection, ep, hcall, -⟩ :=
      Connection.sendInloop_serves reply.message (hinv.linked reply.job.fd).2
    refine ⟨.runTask loop, trivial, ?_⟩
    rw [step, hpop, Option.bind_some]
    dsimp only [sendInloop]
    rw [hcall]
    rfl

/-- While no loop is draining, a worker with a task or in `addtask` goes on. -/
theorem exists_step_of_working (hinv : Inv loopOf workers state)
    (hfree : ∀ loop, (state.loops loop).draining = false) {thread : WorkThread Job}
    (hmem : thread ∈ state.pool.threads) (hbusy : thread ≠ .waiting) :
    ∃ label, Internal label ∧ (step loopOf state label).isSome = true := by
  obtain ⟨worker, hthread⟩ := List.mem_iff_getElem?.mp hmem
  cases thread with
  | waiting => exact absurd rfl hbusy
  | running job =>
    refine ⟨.handledata worker, trivial, ?_⟩
    rw [step, hthread]
    dsimp only
    rw [sendmessage_addtask (hinv.connected job.fd), EventLoop.push, hfree]
    rfl
  | waking loop =>
    refine ⟨.wakeup worker, trivial, ?_⟩
    rw [step, hthread]
    rfl

/-- While its loop is not draining, `::send` can accept a byte of a connection that has one. -/
theorem isSome_sendClient (hinv : Inv loopOf workers state) {fd : Fd}
    (hfree : (state.loops (loopOf fd)).draining = false)
    (houtput : (state.connections fd).outputbuffer.buf ≠ []) :
    (step loopOf state (.sendClient fd 1)).isSome = true := by
  obtain ⟨connection, ep, events, hcall, -⟩ :=
    Connection.sendClient_serves 1 (hinv.linked fd).2
  have hlength := List.length_pos_of_ne_nil houtput
  have hgoes : ¬ ((state.loops (loopOf fd)).draining = true ∨ (1 : ℤ) < -1 ∨
      ((state.connections fd).outputbuffer.size : ℤ) < 1) := by
    rintro (hdraining | hwriten | hsize)
    · rw [hfree] at hdraining
      cases hdraining
    · omega
    · rw [Buffer.size] at hsize
      omega
  rw [step, if_neg hgoes, hcall]
  rfl

/-- Some internal step is enabled unless nothing is pending. -/
theorem exists_step_of_pending (hinv : Inv loopOf workers state)
    (hsettling : Settling threadnum state.pool state.loops) (hpending : ¬ AtRest state) :
    ∃ label, Internal label ∧ (step loopOf state label).isSome = true := by
  by_cases hdraining : ∃ loop, (state.loops loop).draining = true
  · obtain ⟨loop, hloop⟩ := hdraining
    exact exists_step_of_draining hinv hloop
  have hfree : ∀ loop, (state.loops loop).draining = false := fun loop ↦
    Bool.eq_false_iff.mpr fun hloop ↦ hdraining ⟨loop, hloop⟩
  by_cases hsends : ∃ fd, (state.connections fd).outputbuffer.buf ≠ []
  · obtain ⟨fd, houtput⟩ := hsends
    exact ⟨.sendClient fd 1, Int.one_pos, isSome_sendClient hinv (hfree _) houtput⟩
  have houtput : ∀ fd, (state.connections fd).outputbuffer.buf = [] := fun fd ↦
    not_not.mp fun hne ↦ hsends ⟨fd, hne⟩
  by_cases hworking : ∃ thread ∈ state.pool.threads, thread ≠ .waiting
  · obtain ⟨thread, hmem, hbusy⟩ := hworking
    exact exists_step_of_working hinv hfree hmem hbusy
  have hwaiting : ∀ thread ∈ state.pool.threads, thread = .waiting := fun thread hmem ↦
    not_not.mp fun hne ↦ hworking ⟨thread, hmem, hne⟩
  cases hq : state.pool.q with
  | cons job rest =>
    -- There is a job, so there is a worker, and it waits.
    have hworkers : workers ≠ 0 := hinv.queue (by rw [hq]; exact List.cons_ne_nil job rest)
    have hsize : state.pool.threads.length = workers := hinv.size
    have hworker : 0 < state.pool.threads.length := by omega
    have hthread : state.pool.threads[0]? = some .waiting := by
      rw [List.getElem?_eq_getElem hworker, hwaiting _ (List.getElem_mem hworker)]
    refine ⟨.take 0, trivial, ?_⟩
    rw [step, Tpl.take, hthread, hq]
    rfl
  | nil =>
    -- What is left is a task or a wake-up of a loop, and a task has a wake-up.
    have hready : ∃ loop, 0 < (state.loops loop).eventfd := by
      by_contra hnone
      have hquiet : ∀ loop, (state.loops loop).eventfd = 0 := fun loop ↦
        Nat.eq_zero_of_not_pos fun hpos ↦ hnone ⟨loop, hpos⟩
      refine hpending ⟨hq, hwaiting, fun loop ↦ ⟨?_, hquiet loop, hfree loop⟩, houtput⟩
      by_contra htasks
      rcases hsettling.noticed loop htasks with hloop | hpos | hmem
      · exact hdraining ⟨loop, hloop⟩
      · exact hnone ⟨loop, hpos⟩
      · cases hwaiting _ hmem
    obtain ⟨loop, hpos⟩ := hready
    refine ⟨.handleWakeup loop, trivial, ?_⟩
    rw [step, EventLoop.handleWakeup, if_pos ⟨hfree loop, hpos⟩]
    rfl

end Progress

/-! ### Runs -/

section Runs

variable {threadnum workers : ℕ} {state : State}

theorem settling_of_reachable (hthreadnum : 0 < threadnum)
    (hreach : (system (shard threadnum) workers).Reachable state) :
    Inv (shard threadnum) workers state ∧ Settling threadnum state.pool state.loops := by
  refine ⟨(inv_of_reachable hreach).1, ?_⟩
  have hboth : Inv (shard threadnum) workers state ∧
      Settling threadnum state.pool state.loops := by
    refine hreach.invariant (fun reached ↦ Inv (shard threadnum) workers reached ∧
      Settling threadnum reached.pool reached.loops) ?_ ?_
    · intro start hstart
      refine ⟨Initial.inv hstart, ?_⟩
      obtain ⟨hpool, hloops⟩ := hstart
      rw [hpool, hloops]
      refine ⟨fun _ _ ↦ rfl, fun loop hmem ↦ ?_, fun loop htasks ↦ absurd rfl htasks⟩
      cases List.eq_of_mem_replicate hmem
    · rintro before label after ⟨hinv, hsettling⟩ - hstep
      exact ⟨hinv.effect (effect_of_step hinv hstep),
        hsettling.moves hthreadnum (moves_of_step hinv hstep).1⟩
  exact hboth.2

/-- An internal run dispatches nothing. -/
theorem dispatched_of_run {loopOf : Fd → ℕ} {final : State} {labels : List Label}
    (hinv : Inv loopOf workers state) (hinternal : ∀ label ∈ labels, Internal label)
    (hrun : (system loopOf workers).run state labels = some final) :
    final.dispatched = state.dispatched := by
  have hboth : Inv loopOf workers final ∧ final.dispatched = state.dispatched := by
    refine TransitionSystem.run_invariant (fun reached ↦ Inv loopOf workers reached ∧
      reached.dispatched = state.dispatched) ?_ hinternal ⟨hinv, rfl⟩ hrun
    rintro before label after ⟨hbefore, hsame⟩ hlabel hstep
    exact ⟨hbefore.effect (effect_of_step hbefore hstep),
      ((moves_of_step hbefore hstep).2 hlabel).trans hsame⟩
  exact hboth.2

/-- What the threads on their own have before them, for the connections that have dispatched
anything. -/
def remaining (threadnum : ℕ) (served : Finset Fd) (state : State) : ℕ :=
  work threadnum state.pool state.loops + ∑ fd ∈ served, unsent state fd

/-- Every internal step lowers it. -/
theorem remaining_lt {served : Finset Fd} {next : State} {label : Label}
    (hthreadnum : 0 < threadnum)
    (hreach : (system (shard threadnum) workers).Reachable state)
    (hserved : ∀ fd, fd ∉ served → state.dispatched fd = []) (hinternal : Internal label)
    (hstep : step (shard threadnum) state label = some next) :
    remaining threadnum served next < remaining threadnum served state := by
  obtain ⟨hinv, hsettling⟩ := settling_of_reachable hthreadnum hreach
  have hconserved := (inv_of_reachable hreach).2
  have hmoves := moves_of_step hinv hstep
  by_cases hsend : ∃ fd writen, label = .sendClient fd writen
  · obtain ⟨fd, writen, rfl⟩ := hsend
    obtain ⟨hpool, hloops, -, hlower, hothers⟩ :=
      unsent_of_send hinv (hconserved fd) hinternal hstep
    have hmem : fd ∈ served := by
      by_contra hnot
      -- A connection that has dispatched nothing has nothing to send.
      have hzero : unsent state fd = 0 := by
        rw [unsent, replySize, requests, hserved fd hnot]
        exact Nat.zero_sub _
      omega
    have hsum : ∑ other ∈ served, unsent next other < ∑ other ∈ served, unsent state other := by
      refine Finset.sum_lt_sum (fun other _ ↦ ?_) ⟨fd, hmem, hlower⟩
      by_cases hother : other = fd
      · rw [hother]
        exact hlower.le
      · exact (hothers other hother).le
    rw [remaining, remaining, hpool, hloops]
    omega
  · have hnot : ∀ fd writen, label ≠ .sendClient fd writen := fun fd writen heq ↦
      hsend ⟨fd, writen, heq⟩
    have hlower := work_lt_of_moves hsettling hthreadnum hinternal hnot hmoves.1
    have hsame : ∀ fd, unsent next fd = unsent state fd := fun fd ↦ by
      rw [unsent, replySize, requests, hmoves.2 hinternal,
        accepted_of_effect (effect_of_step hinv hstep) hnot]
      rfl
    have hsum : ∑ fd ∈ served, unsent next fd = ∑ fd ∈ served, unsent state fd :=
      Finset.sum_congr rfl fun fd _ ↦ hsame fd
    rw [remaining, remaining, hsum]
    omega

/-- In every state of every run, the threads on their own make a bounded number of steps, however
they are scheduled and however much each `::send` accepts, until none is enabled; and then nothing
is pending, and the kernel has accepted, of each connection, the reply to every request dispatched,
once. A connection with output counts as one whose `send_client` can run. -/
theorem settles (hthreadnum : 0 < threadnum)
    (hreach : (system (shard threadnum) workers).Reachable state) :
    (∃ labels final, (∀ label ∈ labels, Internal label) ∧
      (system (shard threadnum) workers).run state labels = some final ∧
      (system (shard threadnum) workers).Stuck Internal final) ∧
    ∃ served : Finset Fd, (∀ fd, fd ∉ served → state.dispatched fd = []) ∧
      ∀ labels final, (∀ label ∈ labels, Internal label) →
        (system (shard threadnum) workers).run state labels = some final →
          labels.length ≤ work threadnum state.pool state.loops + ∑ fd ∈ served, unsent state fd ∧
          ((system (shard threadnum) workers).Stuck Internal final →
            AtRest final ∧ ∀ fd, ∃ replied : List Request, replied.Perm (requests state fd) ∧
              final.accepted fd = replied.flatMap fun request ↦ handledata request.1) := by
  obtain ⟨served, hserved⟩ := exists_served hreach
  have hlower : ∀ (before : State) label (after : State),
      (system (shard threadnum) workers).Reachable before ∧
          (∀ fd, fd ∉ served → before.dispatched fd = []) →
        Internal label → (system (shard threadnum) workers).step before label = some after →
          ((system (shard threadnum) workers).Reachable after ∧
              ∀ fd, fd ∉ served → after.dispatched fd = []) ∧
            remaining threadnum served after < remaining threadnum served before := by
    rintro before label after ⟨hbefore, hdispatched⟩ hinternal hstep
    have hsame := (moves_of_step (inv_of_reachable hbefore).1 hstep).2 hinternal
    exact ⟨⟨hbefore.step trivial hstep, hsame ▸ hdispatched⟩,
      remaining_lt hthreadnum hbefore hdispatched hinternal hstep⟩
  refine ⟨TransitionSystem.exists_run_stuck (remaining threadnum served) _ hlower
    ⟨hreach, hserved⟩, served, hserved, fun labels final hinternal hrun ↦ ⟨?_, fun hstuck ↦ ?_⟩⟩
  · have hlength := TransitionSystem.length_add_measure_le (remaining threadnum served) _ hlower
      hinternal ⟨hreach, hserved⟩ hrun
    simp only [remaining] at hlength
    omega
  · have hfinal := hreach.of_run labels hrun
    obtain ⟨hinv, hsettling⟩ := settling_of_reachable hthreadnum hfinal
    have hrest : AtRest final := by
      by_contra hpending
      obtain ⟨label, hlabel, hsome⟩ := exists_step_of_pending hinv hsettling hpending
      have hnone : step (shard threadnum) final label = none := hstuck label hlabel
      rw [hnone] at hsome
      cases hsome
    refine ⟨hrest, fun fd ↦ ⟨final.appended fd, ?_, ?_⟩⟩
    · have hquiet : Quiet final (shard threadnum fd) := by
        refine ⟨hrest.q, ?_, (hrest.loops _).1⟩
        rw [Tpl.running, List.filterMap_eq_nil_iff]
        intro thread hmem
        rw [hrest.threads thread hmem]
        rfl
      have hrequests : requests final fd = requests state fd := by
        rw [requests, requests,
          dispatched_of_run (inv_of_reachable hreach).1 hinternal hrun]
      exact hrequests ▸ appended_perm ((inv_of_reachable hfinal).2 fd) hquiet
    · have hstream := hinv.stream fd
      rwa [hrest.output fd, List.append_nil] at hstream

/-- With three loops and two workers, two requests of one connection are answered. -/
theorem settles_two :
    ∃ state final, (system (shard 3) 2).Reachable state ∧
      (state.dispatched 5).length = 2 ∧ AtRest final ∧
      ∃ replied : List Request, replied.Perm (requests state 5) ∧
        final.accepted 5 = replied.flatMap fun request ↦ handledata request.1 := by
  obtain ⟨state, hreach, hdispatched⟩ : ∃ state, (system (shard 3) 2).Reachable state ∧
      (state.dispatched 5).length = 2 :=
    ⟨_, .of_run (.initial (start_initial _ 2)) [.handleMessage 5 [97], .handleMessage 5 [98]] rfl,
      rfl⟩
  obtain ⟨⟨labels, final, hinternal, hrun, hstuck⟩, served, -, hall⟩ := settles (by decide) hreach
  obtain ⟨hrest, hreplied⟩ := (hall labels final hinternal hrun).2 hstuck
  exact ⟨state, final, hreach, hdispatched, hrest, hreplied 5⟩

end Runs

end Reactor.ReplyProgress
