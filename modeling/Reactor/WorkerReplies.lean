import Reactor.EchoService
import Reactor.ReplyOrder
import Reactor.WorkerService
import Reactor.Library.Simulation

/-!
# What a peer gets back when there are workers

`WorkerService`, between reading and sending, is a `ReplyPipeline` (`simulation`): a step of a loop
that reads or is told of events is none of the pipeline, and `handle_wakeup`, one step of the
service, is as many steps of the pipeline as there are tasks, and two more. Both show the same
`View` of the pool, the queues and the streams.

So, for every undisturbed interleaving of the peers, the loops and the workers: what was sent on a
connection and what is in its output buffer are together the replies to distinct requests received
on it, and no reply overtakes as many others as there are workers (`answered_distinct`). When
nothing is pending, every request has been answered exactly once (`answered_exactly`), and along
runs that rearm the replies have then been sent, and the peer reads them back (`answered_sent`).

A peer that waits for the replies to all earlier requests before it completes the next one gets its
replies in order, whatever the number of workers (`patient_answered`).
-/

set_option autoImplicit false
set_option relaxedAutoImplicit false

namespace Reactor.WorkerReplies

open Library Buffer Connection
open ReplyPipeline (Job Reply Request)
open EdgeTriggering (Circumstances)
open WorkerService

/-! ### What both show -/

/-- What the service and the pipeline have in common. -/
structure View where
  pool : Tpl Job
  queues : ℕ → EventLoop Reply
  dispatched : Fd → List Bytes
  sent : Fd → Bytes
  output : Fd → Bytes

def serviceView (loopOf : Fd → ℕ) (state : State) : View :=
  ⟨state.pool, state.queues, state.dispatched, state.sent, state.output loopOf⟩

def pipelineView (pipeline : ReplyPipeline.State) : View :=
  ⟨pipeline.pool, pipeline.loops, pipeline.dispatched, pipeline.accepted,
    fun fd ↦ (pipeline.connections fd).outputbuffer.buf⟩

/-- A request is dispatched only where it may be. -/
def Dispatching (may : ReplyPipeline.State → Fd → Prop) (pipeline : ReplyPipeline.State) :
    ReplyPipeline.Label → Prop
  | .handleMessage fd _ => may pipeline fd
  | _ => True

/-- Some steps of the pipeline, under a guard, lead to a state that looks so. -/
def Leads (loopOf : Fd → ℕ) (workers : ℕ) (may : ReplyPipeline.State → Fd → Prop)
    (pipeline : ReplyPipeline.State) (view : View) : Prop :=
  ∃ labels next,
    (ReplyPipeline.system loopOf workers).GuardedRun (Dispatching may) pipeline labels ∧
      (ReplyPipeline.system loopOf workers).run pipeline labels = some next ∧
        ReplyPipeline.Inv loopOf workers next ∧ pipelineView next = view

section Pipeline

variable {loopOf : Fd → ℕ} {workers : ℕ} {may : ReplyPipeline.State → Fd → Prop}
  {pipeline next : ReplyPipeline.State} {view : View}

theorem Leads.refl (hinv : ReplyPipeline.Inv loopOf workers pipeline)
    (hview : pipelineView pipeline = view) : Leads loopOf workers may pipeline view :=
  ⟨[], pipeline, trivial, rfl, hinv, hview⟩

theorem Leads.step {label : ReplyPipeline.Label} (hinv : ReplyPipeline.Inv loopOf workers pipeline)
    (hstep : ReplyPipeline.step loopOf pipeline label = some next)
    (hguard : Dispatching may pipeline label)
    (hleads : ReplyPipeline.Inv loopOf workers next → Leads loopOf workers may next view) :
    Leads loopOf workers may pipeline view := by
  obtain ⟨labels, final, hguarded, hrun, hfinal, hview⟩ :=
    hleads (hinv.effect (ReplyPipeline.effect_of_step hinv hstep))
  have hsystem : (ReplyPipeline.system loopOf workers).step pipeline label = some next := hstep
  refine ⟨label :: labels, final, ⟨hguard, ?_⟩, ?_, hfinal, hview⟩
  · rw [hsystem]
    exact hguarded
  · rw [TransitionSystem.run_cons, hsystem]
    exact hrun

/-- One step. -/
theorem Leads.one {label : ReplyPipeline.Label} (hinv : ReplyPipeline.Inv loopOf workers pipeline)
    (hstep : ReplyPipeline.step loopOf pipeline label = some next)
    (hguard : Dispatching may pipeline label) (hview : pipelineView next = view) :
    Leads loopOf workers may pipeline view :=
  .step hinv hstep hguard fun hnext ↦ .refl hnext hview

/-- A change of one output buffer. -/
theorem output_update (pipeline : ReplyPipeline.State) (fd : Fd) (connection : Connection) :
    (fun other ↦ (Function.update pipeline.connections fd connection other).outputbuffer.buf) =
      Function.update (pipelineView pipeline).output fd connection.outputbuffer.buf := by
  funext other
  by_cases hother : other = fd
  · subst hother
    rw [Function.update_self, Function.update_self]
  · rw [Function.update_of_ne hother, Function.update_of_ne hother]
    rfl

/-- The loop runs the rest of its tasks and releases the mutex. -/
theorem leads_release {loop : ℕ} : ∀ {tasks : List Reply} {pipeline : ReplyPipeline.State},
    ReplyPipeline.Inv loopOf workers pipeline → pipeline.loops loop = ⟨tasks, 0, true⟩ →
      Leads loopOf workers may pipeline { pipelineView pipeline with
        queues := Function.update pipeline.loops loop ⟨[], 0, false⟩
        output := fun fd ↦ (pipelineView pipeline).output fd ++ replies fd tasks }
  | [], pipeline, hinv, hloop => by
    have hrelease : (pipeline.loops loop).release = some ⟨[], 0, false⟩ := by
      rw [hloop]
      rfl
    have hstep : ReplyPipeline.step loopOf pipeline (.release loop) = some { pipeline with
        loops := Function.update pipeline.loops loop ⟨[], 0, false⟩ } :=
      Option.map_eq_some_iff.mpr ⟨_, hrelease, rfl⟩
    refine .one hinv hstep trivial ?_
    simp [pipelineView, replies]
  | reply :: rest, pipeline, hinv, hloop => by
    have hpop : (pipeline.loops loop).pop = some (reply, ⟨rest, 0, true⟩) := by
      rw [hloop]
      rfl
    obtain ⟨connection, ep, hcall, -, houtput⟩ :=
      Connection.sendInloop_serves reply.message (hinv.linked reply.job.fd).2
    have hstep : ReplyPipeline.step loopOf pipeline (.runTask loop) = some { pipeline with
        loops := Function.update pipeline.loops loop ⟨rest, 0, true⟩
        connections := Function.update pipeline.connections reply.job.fd connection
        eps := Function.update pipeline.eps (loopOf reply.job.fd) ep
        appended := Function.update pipeline.appended reply.job.fd
          (pipeline.appended reply.job.fd ++ [reply.job.request]) } := by
      refine Option.bind_eq_some_iff.mpr ⟨_, hpop, ?_⟩
      simp only [ReplyPipeline.sendInloop, hcall]
    refine .step hinv hstep trivial fun hnext ↦ ?_
    have hrest := leads_release hnext (Function.update_self loop _ _)
    refine (congrArg (Leads loopOf workers may _) ?_).mp hrest
    simp only [pipelineView, Function.update_idem, output_update, View.mk.injEq, true_and]
    funext fd
    rw [replies_cons]
    by_cases hfd : reply.job.fd = fd
    · subst hfd
      rw [if_pos rfl, Function.update_self, houtput, List.append_assoc]
    · rw [if_neg hfd, Function.update_of_ne (Ne.symm hfd), List.nil_append]

end Pipeline

/-! ### The simulation -/

/-- The service is between two steps, and the pipeline is where the service is. -/
structure Related (loopOf : Fd → ℕ) (workers : ℕ) (state : State)
    (pipeline : ReplyPipeline.State) : Prop where
  service : Inv loopOf state
  inv : ReplyPipeline.Inv loopOf workers pipeline
  view : pipelineView pipeline = serviceView loopOf state

section Simulation

variable {loopOf : Fd → ℕ} {workers : ℕ} {may : ReplyPipeline.State → Fd → Prop}
  {state next : State} {pipeline : ReplyPipeline.State}

/-- The output buffers after a step of one loop. -/
theorem output_loop {loop : ℕ} {after : PendingInput.State}
    (hloops : next.loops = Function.update state.loops loop after) (fd : Fd) :
    next.output loopOf fd =
      if loopOf fd = loop then outputOf after.loop fd else state.output loopOf fd := by
  rw [State.output, hloops]
  split_ifs with hloop
  · rw [hloop, Function.update_self]
  · rw [Function.update_of_ne hloop]
    rfl

/-- They are as before when the loop keeps its own. -/
theorem output_loop_eq {loop : ℕ} {after : PendingInput.State}
    (hloops : next.loops = Function.update state.loops loop after)
    (houtput : outputOf after.loop = outputOf (state.loops loop).loop) :
    next.output loopOf = state.output loopOf := by
  funext fd
  rw [output_loop hloops]
  split_ifs with hloop
  · rw [houtput, ← hloop]
    rfl
  · rfl

theorem view_eq (hpool : pipeline.pool = state.pool) (hloops : pipeline.loops = state.queues)
    (hdispatched : pipeline.dispatched = state.dispatched) (hsent : pipeline.accepted = state.sent)
    (houtput : ∀ fd, (pipeline.connections fd).outputbuffer.buf = state.output loopOf fd) :
    pipelineView pipeline = serviceView loopOf state := by
  rw [pipelineView, serviceView, hpool, hloops, hdispatched, hsent, funext houtput]

theorem Related.pool (hrelated : Related loopOf workers state pipeline) :
    pipeline.pool = state.pool := congrArg View.pool hrelated.view

theorem Related.queues (hrelated : Related loopOf workers state pipeline) :
    pipeline.loops = state.queues := congrArg View.queues hrelated.view

theorem Related.dispatched (hrelated : Related loopOf workers state pipeline) :
    pipeline.dispatched = state.dispatched := congrArg View.dispatched hrelated.view

theorem Related.sent (hrelated : Related loopOf workers state pipeline) :
    pipeline.accepted = state.sent := congrArg View.sent hrelated.view

theorem Related.output (hrelated : Related loopOf workers state pipeline) (fd : Fd) :
    (pipeline.connections fd).outputbuffer.buf = state.output loopOf fd :=
  congrFun (congrArg View.output hrelated.view) fd

/-- No loop of the pipeline is in `handle_wakeup`. -/
theorem Related.free (hrelated : Related loopOf workers state pipeline) (loop : ℕ) :
    (pipeline.loops loop).draining = false := by
  rw [hrelated.queues, hrelated.service.free]

/-- A call of `::send` is one of the pipeline. -/
theorem leads_write (hrelated : Related loopOf workers state pipeline) {loop : ℕ} {fd : Fd}
    {connection : Connection} {writen : ℤ} {after : PendingInput.State}
    (hconnection : (state.loops loop).loop.connections fd = some connection)
    (hreturn : ¬ (writen < -1 ∨ connection.outputbuffer.size < writen))
    (hrest : outputOf after.loop =
      Function.update (outputOf (state.loops loop).loop) fd (connection.unsent writen)) :
    Leads loopOf workers may pipeline (serviceView loopOf { state with
      loops := Function.update state.loops loop after
      sent := Function.update state.sent fd (state.sent fd ++ connection.taken writen) }) := by
  have hhome : loopOf fd = loop := hrelated.service.home loop fd (by rw [hconnection]; rfl)
  have hbuffer : (pipeline.connections fd).outputbuffer = connection.outputbuffer := by
    have hbuf := hrelated.output fd
    rw [State.output, hhome, outputOf_of_some hconnection] at hbuf
    exact congrArg Buffer.mk hbuf
  obtain ⟨final, ep, events, hcall, -, hfinal⟩ :=
    Connection.sendClient_serves writen (hrelated.inv.linked fd).2
  have hidle : ¬ ((pipeline.loops (loopOf fd)).draining = true ∨ writen < -1 ∨
      (pipeline.connections fd).outputbuffer.size < writen) := by
    rw [hrelated.free, hbuffer]
    simpa using hreturn
  have hstep : ReplyPipeline.step loopOf pipeline (.sendClient fd writen) =
      some { pipeline with
        connections := Function.update pipeline.connections fd final
        eps := Function.update pipeline.eps (loopOf fd) ep
        accepted := Function.update pipeline.accepted fd
          (pipeline.accepted fd ++ (pipeline.connections fd).taken writen) } := by
    rw [ReplyPipeline.step]
    simp only [if_neg hidle, hcall]
  refine .one hrelated.inv hstep trivial
    (view_eq hrelated.pool hrelated.queues hrelated.dispatched ?_ fun other ↦ ?_)
  · simp only [hrelated.sent, taken, hbuffer]
  · rw [output_loop rfl, hrest]
    by_cases hother : other = fd
    · subst hother
      simp only [Function.update_self, hhome, if_true, hfinal, unsent, hbuffer]
    · simp only [Function.update_of_ne hother, hrelated.output other]
      split_ifs with hloop
      · rw [State.output, hloop]
      · rfl

/-- A call of `handle_wakeup` begins, runs its tasks and ends in the pipeline. -/
theorem leads_handleWakeup (hrelated : Related loopOf workers state pipeline) {loop : ℕ}
    {after : PendingInput.State} (hreadable : 0 < (state.queues loop).eventfd)
    (hsends : ∀ fd, outputOf after.loop fd = outputOf (state.loops loop).loop fd ++
      replies fd (state.queues loop).taskQueue) :
    Leads loopOf workers may pipeline (serviceView loopOf { state with
      loops := Function.update state.loops loop after
      queues := Function.update state.queues loop ⟨[], 0, false⟩ }) := by
  have hbegin : (pipeline.loops loop).handleWakeup =
      some ⟨(state.queues loop).taskQueue, 0, true⟩ := by
    rw [EventLoop.handleWakeup, hrelated.queues,
      if_pos ⟨hrelated.service.free loop, hreadable⟩]
  have hstep : ReplyPipeline.step loopOf pipeline (.handleWakeup loop) = some { pipeline with
      loops := Function.update pipeline.loops loop
        ⟨(state.queues loop).taskQueue, 0, true⟩ } :=
    Option.map_eq_some_iff.mpr ⟨_, hbegin, rfl⟩
  refine .step hrelated.inv hstep trivial fun hnext ↦ ?_
  have hleads : Leads loopOf workers may _ _ :=
    leads_release hnext (Function.update_self loop _ _)
  refine (congrArg (Leads loopOf workers may _) ?_).mp hleads
  simp only [pipelineView, serviceView, View.mk.injEq, Function.update_idem, hrelated.pool,
    hrelated.queues, hrelated.dispatched, hrelated.sent, true_and]
  funext fd
  rw [output_loop rfl, hrelated.output]
  split_ifs with hloop
  · rw [hsends, ← hloop]
    rfl
  · have hnone : replies fd (state.queues loop).taskQueue = [] := by
      rw [replies, List.filter_eq_nil_iff.mpr, List.flatMap_nil]
      intro reply hreply
      have hrouted := (hrelated.inv.tasks loop reply (hrelated.queues ▸ hreply)).routed
      simp only [decide_eq_true_eq]
      rintro rfl
      exact hloop hrouted
    rw [hnone, List.append_nil]

/-- Every step of the service is matched by steps of the pipeline, which dispatch a message only if
the service gives one of the same connection to the pool. -/
theorem leads_of_effect {label : Label} (hworkers : 0 < workers)
    (hrelated : Related loopOf workers state pipeline) (heffect : Effect loopOf state label next)
    (hmay : ∀ {loop : ℕ} {fd : Fd} {message : Bytes} {rest : List (Fd × Bytes)},
      label = .handleMessage loop → state.found loop = (fd, message) :: rest → may pipeline fd) :
    Leads loopOf workers may pipeline (serviceView loopOf next) := by
  have hinv := hrelated.inv
  have hpool := hrelated.pool
  have hloops := hrelated.queues
  have hdispatched := hrelated.dispatched
  cases heffect with
  | @unchanged _ loop after hserved hunchanged =>
    refine .refl hinv (hrelated.view.trans ?_)
    simp only [serviceView, View.mk.injEq, true_and]
    exact (output_loop_eq rfl hunchanged.output).symm
  | @read loop circumstances fd after messages hlive hkept hnone hsame hmessages =>
    refine .refl hinv (hrelated.view.trans ?_)
    simp only [serviceView, View.mk.injEq, true_and]
    exact (output_loop_eq rfl hsame).symm
  | write hconnection _ hreturn hrest => exact leads_write hrelated hconnection hreturn hrest
  | @handleMessage loop fd message rest hfound =>
    have hsize : pipeline.pool.size ≠ 0 := by
      rw [hinv.size]
      exact Nat.pos_iff_ne_zero.mp hworkers
    have hstep : ReplyPipeline.step loopOf pipeline (.handleMessage fd message) =
        some { ReplyPipeline.counted pipeline fd message with
          pool := pipeline.pool.enqueue (ReplyPipeline.nextJob pipeline fd message) } := by
      rw [ReplyPipeline.step, hrelated.free, if_neg Bool.false_ne_true, if_neg hsize]
    refine .one hinv hstep (hmay rfl hfound) (view_eq ?_ hloops ?_ hrelated.sent hrelated.output)
    · simp only [ReplyPipeline.nextJob, hpool, hdispatched]
    · simp only [ReplyPipeline.counted, hdispatched]
  | @take worker pool htake =>
    have hstep : ReplyPipeline.step loopOf pipeline (.take worker) = some { pipeline with pool } :=
      Option.map_eq_some_iff.mpr ⟨pool, hpool ▸ htake, rfl⟩
    exact .one hinv hstep trivial (view_eq rfl hloops hdispatched hrelated.sent hrelated.output)
  | @handledata worker job hthread =>
    rw [← hpool] at hthread
    have hpush : (pipeline.loops (loopOf job.fd)).push
        ⟨job, ReplyPipeline.handledata job.request.1⟩ = some { pipeline.loops (loopOf job.fd) with
          taskQueue := (pipeline.loops (loopOf job.fd)).taskQueue ++
            [⟨job, ReplyPipeline.handledata job.request.1⟩] } := by
      rw [EventLoop.push, if_neg (Bool.eq_false_iff.mp (hrelated.free _))]
    have hstep : ReplyPipeline.step loopOf pipeline (.handledata worker) = some { pipeline with
        loops := Function.update pipeline.loops (loopOf job.fd)
          { pipeline.loops (loopOf job.fd) with
            taskQueue := (pipeline.loops (loopOf job.fd)).taskQueue ++
              [⟨job, ReplyPipeline.handledata job.request.1⟩] }
        pool := pipeline.pool.put worker (.waking (loopOf job.fd)) } := by
      simp only [ReplyPipeline.step, hthread,
        ReplyPipeline.sendmessage_addtask (hinv.connected job.fd), hpush]
      rfl
    refine .one hinv hstep trivial (view_eq ?_ ?_ hdispatched hrelated.sent hrelated.output)
    · simp only [hpool]
    · simp only [hloops]
  | @wakeup worker loop hthread =>
    rw [← hpool] at hthread
    have hstep : ReplyPipeline.step loopOf pipeline (.wakeup worker) = some { pipeline with
        pool := pipeline.pool.put worker .waiting
        loops := Function.update pipeline.loops loop (pipeline.loops loop).wakeup } := by
      simp only [ReplyPipeline.step, hthread]
    refine .one hinv hstep trivial (view_eq ?_ ?_ hdispatched hrelated.sent hrelated.output)
    · simp only [hpool]
    · simp only [hloops]
  | handleWakeup hreadable _ hsends => exact leads_handleWakeup hrelated hreadable hsends

/-- Between reading and sending the service is a pipeline. What the guard of the service keeps may
be used for the one of the pipeline. -/
theorem simulation (hworkers : 0 < workers) {guard : State → Label → Prop} {property : State → Prop}
    (hinitial : ∀ start, Initial workers start → property start)
    (hundisturbed : ∀ state label, guard state label → Undisturbed state label)
    (hkeeps : ∀ state label next, Inv loopOf state → property state → guard state label →
      step loopOf workers state label = some next → property next)
    (hmay : ∀ state pipeline, Related loopOf workers state pipeline →
      (ReplyPipeline.system loopOf workers).Reachable pipeline → property state →
        ∀ loop fd message rest, state.found loop = (fd, message) :: rest → may pipeline fd) :
    Simulation (system loopOf workers) (ReplyPipeline.system loopOf workers) guard
      (Dispatching may) fun state pipeline ↦ Related loopOf workers state pipeline ∧
        (ReplyPipeline.system loopOf workers).Reachable pipeline ∧ property state := by
  refine ⟨fun start hstart ↦ ?_, ?_⟩
  · have hpipeline := ReplyPipeline.start_initial loopOf workers
    refine ⟨_, hpipeline, ⟨inv_of_initial hstart, hpipeline.inv, ?_⟩, .initial hpipeline,
      hinitial start hstart⟩
    refine view_eq hstart.pool.symm hstart.queues.symm hstart.dispatched.symm hstart.sent.symm
      fun fd ↦ ?_
    rw [State.output, outputOf, (hstart.loops (loopOf fd)).server.loop.connections]
    rfl
  · rintro state pipeline label next ⟨hrelated, hreach, hproperty⟩ hguard hstep
    have heffect :=
      effect_of_step hworkers hrelated.service (hundisturbed state label hguard) hstep
    obtain ⟨labels, final, hguarded, hrun, hinv, hview⟩ :=
      @leads_of_effect loopOf workers may _ _ _ _ hworkers hrelated heffect fun _ hfound ↦
        hmay state pipeline hrelated hreach hproperty _ _ _ _ hfound
    exact ⟨labels, final, hguarded, hrun, ⟨hrelated.service.effect heffect, hinv, hview⟩,
      TransitionSystem.Reachable.of_run hreach labels hrun,
      hkeeps state label next hrelated.service hproperty hguard hstep⟩

end Simulation

/-! ### Runs that rearm -/

/-- A step that the main thread does not disturb, and that rearms when it handles an event. -/
def Smooth (workers : ℕ) (state : State) : Label → Prop
  | .handleevent loop circumstances =>
    (state.loops loop).shared = none ∧
      EdgeTriggering.Rearming workers (state.loops loop).loop (.handleevent circumstances)
  | _ => True

instance (workers : ℕ) (state : State) : ∀ label, Decidable (Smooth workers state label)
  | .handleevent loop circumstances =>
    inferInstanceAs (Decidable ((state.loops loop).shared = none ∧
      EdgeTriggering.Rearming workers (state.loops loop).loop (.handleevent circumstances)))
  | .accept _ _ _ _ _ | .setcallback _ | .arrive _ _ | .raise _ _ | .epollWait _ _
  | .handleMessage _ | .handleWakeup _ | .take _ | .handledata _ | .wakeup _ => .isTrue trivial

theorem undisturbed_of_smooth {workers : ℕ} {state : State} {label : Label}
    (hsmooth : Smooth workers state label) : Undisturbed state label := by
  cases label with
  | handleevent => exact hsmooth.1
  | _ => trivial

section Rearming

variable {loopOf : Fd → ℕ} {workers : ℕ} {state : State}

/-- The output of every loop is going to be sent. -/
def Armed (state : State) : Prop := ∀ loop, EdgeTriggering.Inv none (state.loops loop).loop

/-- A smooth step keeps it so. -/
theorem Armed.step {next : State} {label : Label} (harmed : Armed state)
    (hsmooth : Smooth workers state label)
    (hstep : WorkerService.step loopOf workers state label = some next) : Armed next := by
  have hloops := (loops_of_step hstep).loops
  split at hloops
  · intro loop
    rw [hloops]
    exact harmed loop
  · rename_i loop loopLabel hlabel
    obtain ⟨after, hafter, hnext⟩ := hloops
    have hloop : PendingInput.Undisturbed (state.loops loop) loopLabel ∧
        MainThread.Rearming workers (state.loops loop).toState loopLabel.ofServer := by
      cases label with
      | handleevent =>
        cases hlabel
        exact hsmooth
      | accept | setcallback | arrive | raise | epollWait | handleWakeup =>
        cases hlabel
        exact ⟨trivial, trivial⟩
      | handleMessage | take | handledata | wakeup => cases hlabel
    obtain ⟨server, streams, hmoves, -, rfl⟩ := PendingInput.moves_of_step hloop.1 hafter
    intro index
    rw [hnext]
    exact @forall_update _ state.loops (fun _ kept ↦ EdgeTriggering.Inv none kept.loop) harmed _ _
      (hmoves.inv hloop.2 (harmed loop)) index

theorem armed_of_smooth (hreach : (system loopOf workers).ReachesUnder (Smooth workers) state) :
    Armed state :=
  hreach.invariant Armed (fun _ hinitial loop ↦ .initial (hinitial.loops loop).server.loop)
    fun _ _ _ harmed hsmooth hstep ↦ harmed.step hsmooth hstep

end Rearming

/-! ### Replies to what was received -/

/-- Nothing is pending for a connection: its loop is back at `epoll_wait` and has given all messages
to the pool, the descriptor is not on the ready list, and no job or task is on its way. -/
structure AtRest (loopOf : Fd → ℕ) (state : State) (fd : Fd) : Prop where
  batch : (state.loops (loopOf fd)).loop.batch = []
  ready : (state.loops (loopOf fd)).loop.ep.ready fd = false
  found : state.found (loopOf fd) = []
  q : state.pool.q = []
  running : state.pool.running = []
  tasks : (state.queues (loopOf fd)).taskQueue = []

/-- What has been received on a connection. -/
def received (loopOf : Fd → ℕ) (state : State) (fd : Fd) : Bytes :=
  (state.loops (loopOf fd)).received fd

section Results

variable {loopOf : Fd → ℕ} {workers : ℕ} {state : State} {fd : Fd} {connection : Connection}

/-- The messages that the loop of a connection has dispatched are the first requests received. -/
theorem loop_isPrefix (hinv : Inv loopOf state) (fd : Fd) :
    (state.loops (loopOf fd)).dispatched fd <+:
      PendingInput.requests (received loopOf state fd) := by
  cases hconnection : (state.loops (loopOf fd)).loop.connections fd with
  | none =>
    rw [hinv.fresh _ _ hconnection]
    exact List.nil_prefix
  | some connection =>
    rw [received, (hinv.served _ _ _ hconnection).dispatched.requests_eq]
    exact List.prefix_append _ _

/-- So are those given to the pool. -/
theorem dispatched_isPrefix (hinv : Inv loopOf state) (fd : Fd) :
    state.dispatched fd <+: PendingInput.requests (received loopOf state fd) := by
  have hloop := loop_isPrefix hinv fd
  rw [hinv.ledger fd] at hloop
  exact (List.prefix_append _ _).trans hloop

/-- Without a `" "` they are all of them when nothing is pending. -/
theorem dispatched_eq (hinv : Inv loopOf state) (hrest : AtRest loopOf state fd)
    (hconnection : (state.loops (loopOf fd)).loop.connections fd = some connection)
    (hnot : noMessage ∉ frameParser.items (received loopOf state fd)) :
    state.dispatched fd = frameParser.items (received loopOf state fd) := by
  have hledger := hinv.ledger fd
  rw [State.waiting, hrest.found, List.filterMap_nil, List.append_nil] at hledger
  rw [← hledger]
  exact (hinv.served _ _ _ hconnection).dispatched.all_dispatched hnot

/-- The replies to the messages given to the pool. -/
theorem exists_replied (hworkers : 0 < workers)
    (hreach : (system loopOf workers).ReachesUnder Undisturbed state) (fd : Fd) :
    Inv loopOf state ∧ ∃ replied : List Request, replied.Nodup ∧
      Pipeline.Near workers replied (state.dispatched fd).zipIdx ∧
      state.sent fd ++ state.output loopOf fd =
        replied.flatMap (fun request ↦ ReplyPipeline.handledata request.1) ∧
      (AtRest loopOf state fd → replied.Perm (state.dispatched fd).zipIdx) := by
  obtain ⟨pipeline, -, hrelated, hpipeline, -⟩ :=
    (@simulation loopOf workers (fun _ _ ↦ True) hworkers _ (fun _ ↦ True) (fun _ _ ↦ trivial)
      (fun _ _ ↦ id) (fun _ _ _ _ _ _ _ ↦ trivial)
      fun _ _ _ _ _ _ _ _ _ _ ↦ trivial).reaches hreach
  have hrequests : ReplyPipeline.requests pipeline fd = (state.dispatched fd).zipIdx := by
    rw [ReplyPipeline.requests, hrelated.dispatched]
  obtain ⟨hpipelineInv, hconserved⟩ := ReplyPipeline.inv_of_reachable hpipeline
  refine ⟨hrelated.service, pipeline.appended fd, ?_, ?_, ?_, fun hrest ↦ ?_⟩
  · exact (hconserved fd).delivered_nodup (ReplyPipeline.requests_nodup pipeline fd)
  · have hnear := (@ReplyOrder.overtaking_of_reachable _ _ _ fd hpipeline).near.of_append
    rw [Nat.max_eq_left hworkers] at hnear
    exact hrequests ▸ hnear
  · rw [← hrelated.sent, ← hrelated.output]
    exact hpipelineInv.stream fd
  · rw [← hrequests]
    refine ReplyPipeline.appended_perm (hconserved fd) ⟨?_, ?_, ?_⟩
    · rw [hrelated.pool, hrest.q]
    · rw [hrelated.pool, hrest.running]
    · rw [hrelated.queues, hrest.tasks]

/-- A service without connections, with two workers. -/
def start : State where
  loops := fun _ ↦ PendingInput.start
  found := fun _ ↦ []
  pool := .new 2
  queues := fun _ ↦ .new
  dispatched := fun _ ↦ []
  sent := fun _ ↦ []

theorem start_initial : Initial 2 start :=
  ⟨fun _ ↦ ⟨MainThread.start_initial, rfl, rfl, rfl⟩, rfl, rfl, rfl, rfl, rfl⟩

/-- Two workers take the requests `"a"` and `"b"`, and the second is done first. -/
theorem exists_answered : ∃ state connection,
    (system (fun _ ↦ 0) 2).ReachesUnder (Smooth 2) state ∧
      (state.loops 0).loop.connections 7 = some connection ∧ AtRest (fun _ ↦ 0) state 7 ∧
      (state.loops 0).loop.ep.level 7 &&& EPOLLOUT ≠ 0 ∧
      frameParser.items (received (fun _ ↦ 0) state 7) = [[97], [98]] := by
  let labels : List Label := [.accept 7 7 0 EPOLLOUT [], .setcallback 0, .setcallback 0,
    .setcallback 0, .arrive 7 (encode [97] ++ encode [98]), .epollWait 0 [.connection 7],
    .setcallback 0, .setcallback 0,
    .handleevent 0 ⟨.still, [.data ⟨encode [97] ++ encode [98], by decide⟩, .failed EAGAIN], 0⟩,
    .handleMessage 0, .handleMessage 0, .take 0, .take 1, .handledata 1, .handledata 0, .wakeup 0,
    .wakeup 1, .epollWait 0 [.wakeup], .handleWakeup 0, .epollWait 0 [.connection 7],
    .handleevent 0 ⟨.still, [], 22⟩]
  have hguarded : (system (fun _ ↦ 0) 2).GuardedRun (Smooth 2) start labels := by decide +kernel
  have hfinal : ((system (fun _ ↦ 0) 2).run start labels).map (fun state ↦ decide
      (((state.loops 0).loop.connections 7).isSome = true ∧ (state.loops 0).loop.batch = [] ∧
        (state.loops 0).loop.ep.ready 7 = false ∧ state.found 0 = [] ∧ state.pool.q = [] ∧
        state.pool.running = [] ∧ (state.queues 0).taskQueue.length = 0 ∧
        (state.loops 0).loop.ep.level 7 &&& EPOLLOUT ≠ 0 ∧
        (state.loops 0).received 7 = encode [97] ++ encode [98])) = some true := by
    decide +kernel
  obtain ⟨state, hrun, hstate⟩ := Option.map_eq_some_iff.mp hfinal
  obtain ⟨hlive, hbatch, hready, hfound, hq, hrunning, htasks, hlevel, hreceived⟩ :=
    of_decide_eq_true hstate
  obtain ⟨connection, hconnection⟩ := Option.isSome_iff_exists.mp hlive
  refine ⟨state, connection, .of_run (.initial start_initial) labels hguarded hrun, hconnection,
    ⟨hbatch, hready, hfound, hq, hrunning, List.length_eq_zero_iff.mp htasks⟩, hlevel, ?_⟩
  have hitems := @items_encodeAll [[97], [98]] (by simp [maxPayload])
  rw [received, hreceived]
  exact hitems

/-- In every undisturbed run, when nothing is pending for a live connection, all that has arrived
has been read; and without a request `" "`, what has been sent and what waits in the output buffer
are together the replies to all requests, each exactly once. -/
theorem answered_exactly (hworkers : 0 < workers)
    (hreach : (system loopOf workers).ReachesUnder Undisturbed state)
    (hconnection : (state.loops (loopOf fd)).loop.connections fd = some connection)
    (hrest : AtRest loopOf state fd) :
    (state.loops (loopOf fd)).unread fd = [] ∧
      (noMessage ∉ frameParser.items (received loopOf state fd) →
        ∃ replied : List Request,
          replied.Perm (frameParser.items (received loopOf state fd)).zipIdx ∧
          Pipeline.Near workers replied (frameParser.items (received loopOf state fd)).zipIdx ∧
          state.sent fd ++ connection.outputbuffer.buf =
            replied.flatMap (fun request ↦ ReplyPipeline.handledata request.1)) := by
  obtain ⟨hinv, replied, -, hnear, hstream, hall⟩ := exists_replied hworkers hreach fd
  refine ⟨(hinv.served _ _ _ hconnection).unread_eq_nil hrest.batch hrest.ready, fun hnot ↦ ?_⟩
  rw [← dispatched_eq hinv hrest hconnection hnot]
  refine ⟨replied, hall hrest, hnear, ?_⟩
  rw [← hstream, State.output, outputOf_of_some hconnection]

theorem answered_exactly_two : ∃ (state : State) (connection : Connection),
    (state.loops 0).unread 7 = [] ∧ ∃ replied : List Request,
      replied.Perm [([97], 0), ([98], 1)] ∧ Pipeline.Near 2 replied [([97], 0), ([98], 1)] ∧
        state.sent 7 ++ connection.outputbuffer.buf =
          replied.flatMap (fun request ↦ ReplyPipeline.handledata request.1) := by
  obtain ⟨state, connection, hreach, hconnection, hrest, -, hitems⟩ := exists_answered
  obtain ⟨hunread, hall⟩ := answered_exactly Nat.two_pos
    (hreach.mono fun _ _ ↦ undisturbed_of_smooth) hconnection hrest
  rw [hitems] at hall
  exact ⟨state, connection, hunread, hall (by simp [noMessage])⟩

/-- The peer reads back the replies it has been sent. -/
theorem items_replied {replied : List Request} (hnot : ∀ request ∈ replied, request.1 ≠ noMessage)
    (hlength : ∀ request ∈ replied, request.1.length ≤ 2147483637) :
    frameParser.items (replied.flatMap fun request ↦ ReplyPipeline.handledata request.1) =
      replied.map fun request ↦ ReplyFraming.reply request.1 := by
  have hmessages : (replied.map Prod.fst).filter (fun message ↦ message ≠ noMessage) =
      replied.map Prod.fst := by
    rw [List.filter_eq_self, List.forall_mem_map]
    exact fun request hrequest ↦ decide_eq_true (hnot request hrequest)
  have hitems := @EchoService.items_answers (replied.map Prod.fst) (List.forall_mem_map.mpr hlength)
  rw [EchoService.answers, hmessages, List.flatMap_map, List.map_map] at hitems
  exact hitems

/-- In a run that is undisturbed and rearms, when nothing is pending for a live connection though
its socket is writable, and there was no request `" "`: all that has arrived has been read, and the
replies to all requests have been sent, each exactly once. The peer reads them back when no request
is of the longest. -/
theorem answered_sent (hworkers : 0 < workers)
    (hreach : (system loopOf workers).ReachesUnder (Smooth workers) state)
    (hconnection : (state.loops (loopOf fd)).loop.connections fd = some connection)
    (hrest : AtRest loopOf state fd)
    (hwritable : (state.loops (loopOf fd)).loop.ep.level fd &&& EPOLLOUT ≠ 0)
    (hnot : noMessage ∉ frameParser.items (received loopOf state fd)) :
    (state.loops (loopOf fd)).unread fd = [] ∧ ∃ replied : List Request,
      replied.Perm (frameParser.items (received loopOf state fd)).zipIdx ∧
      Pipeline.Near workers replied (frameParser.items (received loopOf state fd)).zipIdx ∧
      state.sent fd = replied.flatMap (fun request ↦ ReplyPipeline.handledata request.1) ∧
      ((∀ request ∈ frameParser.items (received loopOf state fd), request.length ≤ 2147483637) →
        frameParser.items (state.sent fd) =
          replied.map fun request ↦ ReplyFraming.reply request.1) := by
  obtain ⟨hunread, hall⟩ := answered_exactly hworkers
    (hreach.mono fun _ _ ↦ undisturbed_of_smooth) hconnection hrest
  obtain ⟨replied, hperm, hnear, hstream⟩ := hall hnot
  have houtput : connection.outputbuffer.buf = [] :=
    (armed_of_smooth hreach (loopOf fd)).output_eq_nil hconnection hrest.batch hrest.ready
      hwritable
  rw [houtput, List.append_nil] at hstream
  have hmem : ∀ request ∈ replied, request.1 ∈ frameParser.items (received loopOf state fd) :=
    fun request hrequest ↦ List.fst_mem_of_mem_zipIdx (hperm.mem_iff.mp hrequest)
  refine ⟨hunread, replied, hperm, hnear, hstream, fun hlength ↦ ?_⟩
  rw [hstream]
  refine items_replied (fun request hrequest heq ↦ ?_) fun request hrequest ↦ ?_
  · exact hnot (heq ▸ hmem request hrequest)
  · exact hlength _ (hmem request hrequest)

theorem answered_sent_two : ∃ (state : State) (replied : List Request),
    replied.Perm [([97], 0), ([98], 1)] ∧ frameParser.items (state.sent 7) =
      replied.map fun request ↦ ReplyFraming.reply request.1 := by
  obtain ⟨state, connection, hreach, hconnection, hrest, hwritable, hitems⟩ := exists_answered
  have hnot : noMessage ∉ frameParser.items (received (fun _ ↦ 0) state 7) := by
    simp [hitems, noMessage]
  obtain ⟨-, replied, hperm, -, -, hread⟩ :=
    answered_sent Nat.two_pos hreach hconnection hrest hwritable hnot
  rw [hitems] at hperm hread
  exact ⟨state, replied, hperm, hread (by simp)⟩

end Results

/-! ### Peers that wait -/

/-- What has arrived on a connection. -/
def arrived (loop : PendingInput.State) (fd : Fd) : Bytes := loop.received fd ++ loop.unread fd

/-- A peer completes a request only when the replies to all earlier ones have been sent to it, and
none of its requests is of the longest. -/
def Waits (input output : Bytes) : Prop :=
  (PendingInput.requests input).length ≤ (frameParser.items output).length + 1 ∧
    ∀ request ∈ PendingInput.requests input, request.length ≤ 2147483637

/-- What arrives comes from peers that wait. -/
def Patient (loopOf : Fd → ℕ) (state : State) : Label → Prop
  | .accept _ _ _ _ early => Waits early []
  | .arrive fd bytes => Waits (arrived (state.loops (loopOf fd)) fd ++ bytes) (state.sent fd)
  | _ => True

/-- All peers have waited. -/
def Waiting (loopOf : Fd → ℕ) (state : State) : Prop :=
  ∀ fd, Waits (arrived (state.loops (loopOf fd)) fd) (state.sent fd)

section Waiting

variable {loopOf : Fd → ℕ} {workers : ℕ} {state : State} {fd : Fd}

theorem Waits.mono {input output longer : Bytes} (hwaits : Waits input output)
    (hlonger : output <+: longer) : Waits input longer :=
  ⟨Nat.le_trans hwaits.1 (Nat.succ_le_succ (StreamParser.items_prefix hlonger).length_le), hwaits.2⟩

/-- Longer input has more requests. -/
theorem requests_isPrefix {input longer : Bytes} (hlonger : input <+: longer) :
    PendingInput.requests input <+: PendingInput.requests longer :=
  (StreamParser.items_prefix hlonger).filter _

/-- What has arrived after a step of a loop. -/
theorem arrived_of_step {before after : PendingInput.State} {label : PendingInput.Label}
    (hstep : PendingInput.step workers before label = some after) (fd : Fd) :
    arrived after fd =
      match label with
      | .accept other _ _ _ early => if fd = other then early else arrived before fd
      | .arrive other bytes =>
        if fd = other then arrived before fd ++ bytes else arrived before fd
      | _ => arrived before fd := by
  rw [PendingInput.step] at hstep
  split at hstep
  · rename_i loop streams hloop hstreams
    cases hstep
    cases label with
    | raise | epollWait | handleWakeup | main =>
      cases hstreams
      rfl
    | accept other this now level early =>
      rw [PendingInput.streams, Option.ite_none_right_eq_some] at hstreams
      obtain ⟨-, hstreams⟩ := hstreams
      cases hstreams
      by_cases hother : fd = other
      · subst hother
        simp [arrived]
      · simp [arrived, hother]
    | arrive other bytes =>
      cases hstreams
      by_cases hother : fd = other
      · subst hother
        simp [arrived]
      · simp [arrived, hother]
    | handleevent circumstances =>
      simp only [PendingInput.streams] at hstreams
      split at hstreams
      · cases hstreams
      · rename_i other connection hcurrent
        split at hstreams
        · split_ifs at hstreams
          cases hstreams
          by_cases hother : fd = other
          · subst hother
            simp [arrived]
          · simp [arrived, hother]
        · cases hstreams
          rfl
  · cases hstep

/-- With patient peers every step keeps that all have waited. -/
theorem Waiting.step {next : State} {label : Label} (hwaiting : Waiting loopOf state)
    (hpatient : Patient loopOf state label)
    (hstep : WorkerService.step loopOf workers state label = some next) : Waiting loopOf next := by
  obtain ⟨hloops, hsent⟩ := loops_of_step hstep
  intro fd
  split at hloops
  · rw [hloops]
    exact (hwaiting fd).mono (hsent fd)
  · rename_i loop loopLabel hlabel
    obtain ⟨after, hafter, hnext⟩ := hloops
    refine Waits.mono ?_ (hsent fd)
    rw [hnext]
    by_cases hloop : loopOf fd = loop
    · have hbefore : Waits (arrived (state.loops loop) fd) (state.sent fd) := hloop ▸ hwaiting fd
      rw [hloop, Function.update_self, arrived_of_step hafter]
      cases label with
      | setcallback | raise | epollWait | handleevent | handleWakeup =>
        cases hlabel
        exact hbefore
      | accept other this now level early =>
        cases hlabel
        dsimp only
        split_ifs with hother
        · exact hpatient.mono List.nil_prefix
        · exact hbefore
      | arrive other bytes =>
        cases hlabel
        dsimp only
        split_ifs with hother
        · subst hother
          exact hpatient
        · exact hbefore
      | handleMessage | take | handledata | wakeup => cases hlabel
    · rw [Function.update_of_ne hloop]
      exact hwaiting fd

/-- Initially nothing has arrived. -/
theorem waiting_of_initial (hinitial : Initial workers state) : Waiting loopOf state := by
  intro fd
  have hnone : arrived (state.loops (loopOf fd)) fd = [] := by
    rw [arrived, (hinitial.loops _).received, (hinitial.loops _).unread, List.append_nil]
  rw [hnone, hinitial.sent]
  have hitems : frameParser.items [] = [] := StreamParser.items_of_none rfl
  simp [Waits, PendingInput.requests, hitems]

/-- The replies that have been sent are among the first ones to what was dispatched. -/
theorem items_sent {pipeline : ReplyPipeline.State}
    (hrelated : Related loopOf workers state pipeline)
    (hreach : (ReplyPipeline.system loopOf workers).Reachable pipeline)
    (hwaiting : Waiting loopOf state) (fd : Fd) :
    frameParser.items (state.sent fd) <+:
      (pipeline.appended fd).map fun request ↦ ReplyFraming.reply request.1 := by
  obtain ⟨hinv, hconserved⟩ := ReplyPipeline.inv_of_reachable hreach
  have hrequests : ReplyPipeline.requests pipeline fd = (state.dispatched fd).zipIdx :=
    congrArg (fun view ↦ (View.dispatched view fd).zipIdx) hrelated.view
  have hsent : pipeline.accepted fd = state.sent fd :=
    congrArg (fun view ↦ View.sent view fd) hrelated.view
  have hmem : ∀ request ∈ pipeline.appended fd,
      request.1 ∈ PendingInput.requests (arrived (state.loops (loopOf fd)) fd) := by
    intro request hrequest
    have hdispatched : request.1 ∈ state.dispatched fd := by
      have hissued : request ∈ (state.dispatched fd).zipIdx :=
        hrequests ▸ (hconserved fd).delivered_subset hrequest
      exact List.fst_mem_of_mem_zipIdx hissued
    have hreceived := (dispatched_isPrefix hrelated.service fd).subset hdispatched
    exact (requests_isPrefix (List.prefix_append _ _)).subset hreceived
  have hitems := @items_replied (pipeline.appended fd)
    (fun request hrequest ↦ of_decide_eq_true (List.mem_filter.mp (hmem request hrequest)).2)
    fun request hrequest ↦ (hwaiting fd).2 _ (hmem request hrequest)
  rw [← hitems, ← hinv.stream fd, hsent]
  exact StreamParser.items_prefix (List.prefix_append _ _)

/-- At most one request received is without a reply. -/
theorem requests_le {pipeline : ReplyPipeline.State}
    (hrelated : Related loopOf workers state pipeline)
    (hreach : (ReplyPipeline.system loopOf workers).Reachable pipeline)
    (hwaiting : Waiting loopOf state) (fd : Fd) :
    (PendingInput.requests (received loopOf state fd)).length ≤
      (pipeline.appended fd).length + 1 := by
  have hreceived : PendingInput.requests (received loopOf state fd) <+:
      PendingInput.requests (arrived (state.loops (loopOf fd)) fd) :=
    requests_isPrefix (List.prefix_append _ _)
  have hsent := (items_sent hrelated hreach hwaiting fd).length_le
  rw [List.length_map] at hsent
  calc (PendingInput.requests (received loopOf state fd)).length
    _ ≤ (PendingInput.requests (arrived (state.loops (loopOf fd)) fd)).length :=
      hreceived.length_le
    _ ≤ (frameParser.items (state.sent fd)).length + 1 := (hwaiting fd).1
    _ ≤ (pipeline.appended fd).length + 1 := Nat.succ_le_succ hsent

/-- A message is given to the pool only when all earlier ones of its connection have replies. -/
theorem windowed_of_waiting {pipeline : ReplyPipeline.State}
    (hrelated : Related loopOf workers state pipeline)
    (hreach : (ReplyPipeline.system loopOf workers).Reachable pipeline)
    (hwaiting : Waiting loopOf state) {loop : ℕ} {message : Bytes} {rest : List (Fd × Bytes)}
    (hfound : state.found loop = (fd, message) :: rest) :
    (pipeline.dispatched fd).length < (pipeline.appended fd).length + 1 := by
  have hhome : loopOf fd = loop :=
    hrelated.service.mine loop _ (hfound ▸ List.mem_cons_self)
  have hone : 1 ≤ (state.waiting loopOf fd).length := by
    simp [State.waiting, hhome, hfound]
  have hloop := (loop_isPrefix hrelated.service fd).length_le
  rw [hrelated.service.ledger fd, List.length_append] at hloop
  have hrequests := requests_le hrelated hreach hwaiting fd
  rw [hrelated.dispatched]
  omega

/-- In every undisturbed run in which the peers wait, with any number of workers: what has been sent
on a connection and what waits in its output buffer are together the replies to all requests
received but the last, or to all, in the order of the requests; and the peer reads them back in this
order. -/
theorem patient_answered (hworkers : 0 < workers)
    (hreach : (system loopOf workers).ReachesUnder
      (fun before label ↦ Undisturbed before label ∧ Patient loopOf before label) state) (fd : Fd) :
    ∃ count, (PendingInput.requests (received loopOf state fd)).length ≤ count + 1 ∧
      state.sent fd ++ state.output loopOf fd =
        ((PendingInput.requests (received loopOf state fd)).take count).flatMap
          ReplyPipeline.handledata ∧
      frameParser.items (state.sent fd) <+:
        (PendingInput.requests (received loopOf state fd)).map ReplyFraming.reply := by
  obtain ⟨pipeline, hguarded, hrelated, hpipeline, hwaiting⟩ :=
    (@simulation loopOf workers
      (fun before fd ↦ (before.dispatched fd).length < (before.appended fd).length + 1) hworkers _
      (Waiting loopOf) (fun _ ↦ waiting_of_initial) (fun _ _ ↦ And.left)
      (fun _ _ _ _ hwaiting hguard ↦ hwaiting.step hguard.2)
      fun _ _ hrelated hreach hwaiting _ _ _ _ ↦
        windowed_of_waiting hrelated hreach hwaiting).reaches hreach
  have hwindowed : (ReplyPipeline.system loopOf workers).ReachesUnder (ReplyOrder.Windowed 1)
      pipeline := by
    refine hguarded.mono fun before label hlabel ↦ ?_
    cases label <;> exact hlabel
  have hrequests : ReplyPipeline.requests pipeline fd = (state.dispatched fd).zipIdx :=
    congrArg (fun view ↦ (View.dispatched view fd).zipIdx) hrelated.view
  have htake : (pipeline.appended fd).map Prod.fst =
      (state.dispatched fd).take (pipeline.appended fd).length := by
    have hfirst := congrArg (List.map Prod.fst) (ReplyOrder.appended_eq_take hwindowed fd)
    rwa [hrequests, List.map_take, List.zipIdx_map_fst] at hfirst
  have hcount : (pipeline.appended fd).length ≤ (state.dispatched fd).length := by
    have hlength := congrArg List.length htake
    rw [List.length_map, List.length_take] at hlength
    omega
  have hmessages : (pipeline.appended fd).map Prod.fst =
      (PendingInput.requests (received loopOf state fd)).take (pipeline.appended fd).length := by
    obtain ⟨more, hmore⟩ := dispatched_isPrefix hrelated.service fd
    rw [htake, ← hmore, List.take_append_of_le_length hcount]
  refine ⟨(pipeline.appended fd).length, requests_le hrelated hpipeline hwaiting fd, ?_, ?_⟩
  · have hstream := (ReplyPipeline.inv_of_reachable hpipeline).1.stream fd
    have hsent : pipeline.accepted fd = state.sent fd :=
      congrArg (fun view ↦ View.sent view fd) hrelated.view
    have houtput : (pipeline.connections fd).outputbuffer.buf = state.output loopOf fd :=
      congrArg (fun view ↦ View.output view fd) hrelated.view
    rw [← hmessages, List.flatMap_map, ← hsent, ← houtput, hstream]
  · have hsent := items_sent hrelated hpipeline hwaiting fd
    have hreplies : (pipeline.appended fd).map (fun request ↦ ReplyFraming.reply request.1) =
        ((PendingInput.requests (received loopOf state fd)).take
          (pipeline.appended fd).length).map ReplyFraming.reply := by
      rw [← hmessages, List.map_map]
      rfl
    rw [hreplies] at hsent
    exact hsent.trans ((List.take_prefix _ _).map _)

/-- Two workers answer `"a"` and then `"b"`. -/
theorem patient_answered_two : ∃ (state : State) (count : ℕ),
    PendingInput.requests (received (fun _ ↦ 0) state 7) = [[97], [98]] ∧ 2 ≤ count + 1 ∧
      state.sent 7 ++ state.output (fun _ ↦ 0) 7 =
        ([[97], [98]].take count).flatMap ReplyPipeline.handledata ∧
      frameParser.items (state.sent 7) <+: [ReplyFraming.reply [97], ReplyFraming.reply [98]] := by
  let early : Label := .accept 7 7 0 (EPOLLIN ||| EPOLLOUT) (encode [97])
  let first : List Label := [.setcallback 0, .setcallback 0, .setcallback 0,
    .epollWait 0 [.connection 7], .setcallback 0, .setcallback 0,
    .handleevent 0 ⟨.still, [.data ⟨encode [97], by decide⟩, .failed EAGAIN], 0⟩, .handleMessage 0,
    .take 0, .handledata 0, .wakeup 0, .epollWait 0 [.wakeup], .handleWakeup 0,
    .epollWait 0 [.connection 7], .handleevent 0 ⟨.still, [], 11⟩]
  let second : List Label := [.epollWait 0 [.connection 7],
    .handleevent 0 ⟨.still, [.data ⟨encode [98], by decide⟩, .failed EAGAIN], 0⟩, .handleMessage 0,
    .take 1, .handledata 1, .wakeup 1, .epollWait 0 [.wakeup], .handleWakeup 0]
  let service := system (fun _ ↦ 0) 2
  let guard : State → Label → Prop := fun before label ↦
    Undisturbed before label ∧ Patient (fun _ ↦ 0) before label
  have hundisturbed : service.GuardedRun Undisturbed start (early :: first) := by decide +kernel
  have hfinal : (service.run start (early :: first)).map (fun middle ↦ decide
      (middle.sent 7 = ReplyPipeline.handledata [97] ∧
        arrived (middle.loops 0) 7 = encode [97] ∧
        service.GuardedRun Undisturbed middle (.arrive 7 (encode [98]) :: second) ∧
        (service.run middle (.arrive 7 (encode [98]) :: second)).map (fun state ↦ decide
          (received (fun _ ↦ 0) state 7 = encode [97] ++ encode [98])) = some true)) =
      some true := by
    decide +kernel
  obtain ⟨middle, hrun, hmiddle⟩ := Option.map_eq_some_iff.mp hfinal
  obtain ⟨hsent, harrived, hlaterUndisturbed, hsecond⟩ := of_decide_eq_true hmiddle
  obtain ⟨state, hrest, hstate⟩ := Option.map_eq_some_iff.mp hsecond
  have hreceived := of_decide_eq_true hstate
  have hitems : frameParser.items (encode [97] ++ encode [98]) = [[97], [98]] :=
    @items_encodeAll [[97], [98]] (by simp [maxPayload])
  have hrequests : PendingInput.requests (encode [97] ++ encode [98]) = [[97], [98]] := by
    simp [PendingInput.requests, hitems, noMessage]
  have hearly : Waits (encode [97]) [] := by
    have hone : frameParser.items (encode [97]) = [[97]] :=
      @items_encodeAll [[97]] (by simp [maxPayload])
    simp [Waits, PendingInput.requests, hone, noMessage]
  have hlater : Waits (encode [97] ++ encode [98]) (ReplyPipeline.handledata [97]) := by
    have hreply : frameParser.items (ReplyPipeline.handledata [97]) = [ReplyFraming.reply [97]] :=
      @items_encodeAll [ReplyFraming.reply [97]] (by simp [ReplyFraming.length_reply, maxPayload])
    simp [Waits, hrequests, hreply]
  have hfirst : ∀ label ∈ first, ∀ state, Patient (fun _ ↦ 0) state label := by
    simp [first, Patient]
  have hquiet : ∀ label ∈ second, ∀ state, Patient (fun _ ↦ 0) state label := by
    simp [second, Patient]
  have hmiddleReach : service.ReachesUnder guard middle := by
    have hpatient : service.GuardedRun (Patient fun _ ↦ 0) start (early :: first) := by
      refine ⟨hearly, ?_⟩
      split
      · trivial
      · exact TransitionSystem.guardedRun_of_forall hfirst _
    exact .of_run (.initial start_initial) (early :: first) (hundisturbed.and hpatient) hrun
  have hreach : service.ReachesUnder guard state := by
    have hpatient : service.GuardedRun (Patient fun _ ↦ 0) middle
        (.arrive 7 (encode [98]) :: second) := by
      refine ⟨?_, ?_⟩
      · rw [← hsent, ← harrived] at hlater
        exact hlater
      · split
        · trivial
        · exact TransitionSystem.guardedRun_of_forall hquiet _
    exact hmiddleReach.of_run (.arrive 7 (encode [98]) :: second)
      (hlaterUndisturbed.and hpatient) hrest
  obtain ⟨count, hcount, hstream, hread⟩ := patient_answered Nat.two_pos hreach 7
  rw [hreceived, hrequests] at hcount hstream hread
  exact ⟨state, count, hreceived ▸ hrequests, hcount, hstream, hread⟩

end Waiting

end Reactor.WorkerReplies
