import Reactor.PendingInput
import Reactor.ReplyFraming

/-!
# What a peer gets back

The server as its `main` runs it, with no worker threads, seen by the peers of one sub-loop. To the
sub-loop and the main thread of `MainThread` the state adds, for each descriptor, the bytes that
have arrived at its socket and have not been read (`unread`), those that `onmessage` has read
(`received`), and those that the kernel has accepted from `send_client` (`sent`). No function of the
server looks at these. A call of `onmessage` reads until `EAGAIN` or the end of the stream, and with
that all that is unread.

`echo` is what the service is for: the reply frames of the requests in a stream, in order. A frame
whose payload is `" "` is taken off the stream and gets no reply.

A connection handled while the main thread sets or clears its callbacks may lose a request. In every
run that is undisturbed, what was sent on a connection and what is in its output buffer are together
a prefix of the echo of what was received on it (`replies_prefix`). When the loop is back at
`epoll_wait` and a connection is not on the ready list, nothing that has arrived is unread, and
every request received has been answered, unless a `" "` stopped the drain (`echo_at_rest`). Along
runs that also rearm, the replies have then been sent too, if the socket is writable (`echoed`).
-/

set_option autoImplicit false
set_option relaxedAutoImplicit false

namespace Reactor.EchoService

open Library Buffer Connection
open EdgeTriggering (Circumstances Pointer SameElse)
open PendingInput (Noticed)

structure State extends MainThread.State where
  unread : Fd → Bytes
  received : Fd → Bytes
  sent : Fd → Bytes

inductive Label
  | accept (fd : Fd) (this : ℕ) (now : ℤ) (level : EventMask) (early : Bytes)
  | arrive (fd : Fd) (bytes : Bytes)
  | raise (fd : Fd) (events : EventMask)
  | epollWait (reported : List Pointer)
  | handleevent (circumstances : Circumstances)
  | handleWakeup
  | main (action : MainThread.Action)

/-- The step of the sub-loop, or of the main thread, that a step is. -/
def Label.ofServer : Label → MainThread.Label
  | .accept fd this now level _ => .loop (.accept fd this now level)
  | .arrive fd _ => .loop (.raise fd EPOLLIN)
  | .raise fd events => .loop (.raise fd events)
  | .epollWait reported => .loop (.epollWait reported)
  | .handleevent circumstances => .loop (.handleevent circumstances)
  | .handleWakeup => .loop (.handleWakeup [])
  | .main action => .main action

/-- What a step adds to the streams. Bytes that arrive before a connection is accepted make its
socket readable, and a handler that reads finds what is unread. -/
def streams (state : State) : Label → Option State
  | .accept fd _ _ level early =>
    if early ≠ [] → level &&& EPOLLIN ≠ 0 then
      some { state with
        unread := Function.update state.unread fd early
        received := Function.update state.received fd []
        sent := Function.update state.sent fd [] }
    else none
  | .arrive fd bytes =>
    some { state with unread := Function.update state.unread fd (state.unread fd ++ bytes) }
  | .handleevent circumstances =>
    match state.loop.current with
    | none => none
    | some (fd, connection) =>
      match Channel.handleevent connection.clientchannel.revent with
      | .read =>
        if bytesOf circumstances.results = state.unread fd then
          some { state with
            unread := Function.update state.unread fd []
            received := Function.update state.received fd (state.received fd ++ state.unread fd) }
        else none
      | .write =>
        some { state with
          sent := Function.update state.sent fd
            (state.sent fd ++ connection.taken circumstances.writen) }
      | _ => some state
  | _ => some state

def step (state : State) (label : Label) : Option State :=
  match MainThread.step 0 state.toState label.ofServer, streams state label with
  | some server, some next => some { next with toState := server }
  | _, _ => none

/-- The sub-loop, the main thread and the peers. -/
def system : TransitionSystem State Label where
  initial := fun state ↦ MainThread.Initial state.toState
  step := step

/-- A step that the main thread does not disturb. -/
def Undisturbed (state : State) (label : Label) : Prop :=
  MainThread.Undisturbed state.toState label.ofServer

/-- Such a step that also rearms. -/
def Smooth (state : State) (label : Label) : Prop :=
  Undisturbed state label ∧ MainThread.Rearming 0 state.toState label.ofServer

instance (state : State) (label : Label) : Decidable (Undisturbed state label) :=
  inferInstanceAs (Decidable (MainThread.Undisturbed state.toState label.ofServer))

instance (state : State) (label : Label) : Decidable (Smooth state label) :=
  inferInstanceAs (Decidable (_ ∧ _))

/-- The replies to some requests. -/
def answers (requests : List Bytes) : Bytes :=
  (requests.filter fun request ↦ request ≠ noMessage).flatMap ReplyPipeline.handledata

/-- What the service makes of a stream. -/
def echo (input : Bytes) : Bytes := answers (frameParser.items input)

theorem answers_append (first second : List Bytes) :
    answers (first ++ second) = answers first ++ answers second := by
  rw [answers, List.filter_append, List.flatMap_append, answers, answers]

/-- Requests none of which is `" "` are all answered. -/
theorem answers_of_not_mem {requests : List Bytes} (hnot : noMessage ∉ requests) :
    answers requests = requests.flatMap ReplyPipeline.handledata := by
  rw [answers, List.filter_eq_self.mpr]
  intro request hrequest
  exact decide_eq_true fun heq ↦ hnot (heq ▸ hrequest)

@[simp] theorem echo_nil : echo [] = [] := by
  have hnone : frameParser.next [] = none := rfl
  rw [echo, StreamParser.items_of_none hnone]
  rfl

/-- What is answered of a prefix of a stream comes first. -/
theorem echo_prefix {input longer : Bytes} (hfront : input <+: longer) :
    echo input <+: echo longer := by
  obtain ⟨more, hmore⟩ := frameParser.items_prefix hfront
  rw [echo, echo, ← hmore, answers_append]
  exact List.prefix_append _ _

/-! ### The invariant of a connection -/

/-- How far the requests received on a connection have come: some have been consumed and answered,
and no complete one is left unless a `" "` came last. -/
structure Answered (received sent : Bytes) (connection : Connection) : Prop where
  stream : ∃ consumed, frameParser.Advances received consumed connection.inputbuffer.buf ∧
    sent ++ connection.outputbuffer.buf = answers consumed ∧
      (frameParser.next connection.inputbuffer.buf = none ∨
        ∃ front, consumed = front ++ [noMessage])

/-- What holds of a live connection: its input is going to be read, and its requests are
answered. -/
structure Served (state : State) (fd : Fd) (connection : Connection) : Prop
    extends Noticed state.loop (state.unread fd) fd connection where
  answered : Answered (state.received fd) (state.sent fd) connection

/-- Every live connection is served. -/
def Inv (state : State) : Prop :=
  ∀ fd connection, state.loop.connections fd = some connection → Served state fd connection

/-- A connection that a step does not touch stays served. -/
theorem Served.frame {state next : State} {fd touched : Fd} {connection : Connection}
    (hserved : Served state fd connection) (hne : fd ≠ touched)
    (hsame : SameElse touched state.loop.ep next.loop.ep)
    (hbatch : .connection fd ∈ state.loop.batch → .connection fd ∈ next.loop.batch)
    (hunread : next.unread fd = state.unread fd)
    (hreceived : next.received fd = state.received fd) (hsent : next.sent fd = state.sent fd) :
    Served next fd connection := by
  refine ⟨?_, hreceived ▸ hsent ▸ hserved.answered⟩
  rw [hunread]
  exact hserved.toNoticed.frame hne hsame hbatch

/-- A step that touches one connection keeps the invariant, when it leaves this one served. -/
theorem Inv.put {state : State} (hinv : Inv state) {fd : Fd} {next : State}
    {connection : Option Connection}
    (hconnections : next.loop.connections = Function.update state.loop.connections fd connection)
    (hsame : SameElse fd state.loop.ep next.loop.ep)
    (hbatch : ∀ other, other ≠ fd → .connection other ∈ state.loop.batch →
      .connection other ∈ next.loop.batch)
    (hstreams : ∀ other, other ≠ fd → next.unread other = state.unread other ∧
      next.received other = state.received other ∧ next.sent other = state.sent other)
    (hput : ∀ found, connection = some found → Served next fd found) : Inv next := by
  intro other found hfound
  by_cases hother : other = fd
  · subst hother
    rw [hconnections, Function.update_self] at hfound
    exact hput found hfound
  · rw [hconnections, Function.update_of_ne hother] at hfound
    obtain ⟨hunread, hreceived, hsent⟩ := hstreams other hother
    exact (hinv other found hfound).frame hother hsame (hbatch other hother) hunread hreceived hsent

/-! ### Handling an event -/

/-- Reading and answering what was read keeps the requests of a connection answered. -/
theorem Answered.read {received sent more : Bytes} {connection drained after : Connection}
    {events : List Event} {ambient : Ambient} (hanswered : Answered received sent connection)
    (hset : connection.messagecallback = true)
    (hdrain : drain ambient 0 { connection with
      inputbuffer := connection.inputbuffer.append more } = .ok (drained, events))
    (hinput : after.inputbuffer = drained.inputbuffer)
    (houtput : after.outputbuffer.buf =
      connection.outputbuffer.buf ++ (messages events).flatMap ReplyPipeline.handledata) :
    Answered (received ++ more) sent after := by
  obtain ⟨earlier, hadvance, hstream, -⟩ := hanswered.stream
  have hsetRead : { connection with
    inputbuffer := connection.inputbuffer.append more }.messagecallback = true := hset
  obtain ⟨consumed, hnew, hmessages, hstopped⟩ := PendingInput.drain_consumed hsetRead hdrain
  refine ⟨⟨earlier ++ consumed, ?_, ?_, ?_⟩⟩
  · rw [hinput]
    exact (hadvance.append more).trans hnew
  · rw [houtput, ← List.append_assoc, hstream, hmessages, answers_append]
    rfl
  · rw [hinput]
    refine hstopped.imp_right ?_
    rintro ⟨front, rfl⟩
    exact ⟨earlier ++ front, (List.append_assoc _ _ _).symm⟩

/-- A call of `::send` moves bytes from the output buffer to the kernel. -/
theorem Answered.send {received sent : Bytes} {connection after : Connection} {writen : ℤ}
    (hanswered : Answered received sent connection)
    (hinput : after.inputbuffer = connection.inputbuffer)
    (houtput : after.outputbuffer.buf = connection.unsent writen) :
    Answered received (sent ++ connection.taken writen) after := by
  obtain ⟨consumed, hadvance, hstream, hstopped⟩ := hanswered.stream
  refine ⟨⟨consumed, hinput ▸ hadvance, ?_, hinput ▸ hstopped⟩⟩
  rw [houtput, List.append_assoc, taken_append_unsent, hstream]

section Steps

variable {state next : State}

/-- An undisturbed step is a step of the sub-loop, or one of the main thread that is hardly seen. -/
theorem moves_of_step {label : Label} (hguard : Undisturbed state label)
    (hstep : step state label = some next) :
    ∃ (server : MainThread.State) (after : State),
      MainThread.Moves 0 state.loop label.ofServer server.loop ∧
        streams state label = some after ∧ next = { after with toState := server } := by
  rw [step] at hstep
  split at hstep
  · rename_i server after hserver hstreams
    cases hstep
    exact ⟨server, after, MainThread.moves_of_step hguard hserver, hstreams, rfl⟩
  · cases hstep

/-- Handling an event keeps every connection served. -/
theorem Inv.handleevent {circumstances : Circumstances} (hinv : Inv state)
    (hguard : state.shared = none)
    (hstep : step state (.handleevent circumstances) = some next) : Inv next := by
  obtain ⟨⟨loop, main⟩, after, hmoves, hstreams, rfl⟩ :=
    @moves_of_step _ _ (.handleevent circumstances) hguard hstep
  cases hmoves with
  | step hloop =>
    rw [EdgeTriggering.step] at hloop
    split at hloop
    · rename_i fd rest hbatch
      split at hloop
      · cases hloop
      · rename_i connection hconnection
        have hserved := hinv fd connection hconnection
        have hcurrent : state.loop.current = some (fd, connection) := by
          simp [EdgeTriggering.State.current, hbatch, hconnection]
        simp only [streams, hcurrent] at hstreams
        have hpopped : ∀ other, other ≠ fd → .connection other ∈ state.loop.batch →
            .connection other ∈ rest := by
          intro other hother hmem
          exact PendingInput.mem_of_pop hbatch (fun heq ↦ hother (Pointer.connection.inj heq)) hmem
        have hothers : ∀ other, other ≠ fd → after.unread other = state.unread other ∧
            after.received other = state.received other ∧ after.sent other = state.sent other := by
          intro other hother
          split at hstreams
          · split_ifs at hstreams
            cases hstreams
            simp only [Function.update_of_ne hother, and_self]
          · cases hstreams
            simp only [Function.update_of_ne hother, and_self]
          · cases hstreams
            exact ⟨rfl, rfl, rfl⟩
        have hhandled := @PendingInput.handled_of_handle 0 { state.loop with batch := rest } _ _ _ _
          hserved.sound hloop
        cases hhandled with
        | deleted hsame => exact hinv.put rfl hsame hpopped hothers fun _ hnone ↦ by cases hnone
        | read hread hcall hdrain hgrows =>
          refine hinv.put rfl ((EdgeTriggering.sameElse_lower _ _ _).trans hgrows.same) hpopped
            hothers fun found hfound ↦ ?_
          cases hfound
          rw [hread] at hstreams
          dsimp only at hstreams
          split_ifs at hstreams with hall
          cases hstreams
          rw [hall] at hdrain
          obtain ⟨-, -, houtput⟩ := PendingInput.sound_of_drain hserved.sound hdrain
          rw [if_pos rfl] at hgrows
          refine ⟨?_, ?_⟩
          · simp only [Function.update_self]
            exact hserved.toNoticed.read hdrain hgrows rfl
          · simp only [Function.update_self]
            exact hserved.answered.read hserved.sound.messagecallback hdrain hgrows.inputbuffer
              (houtput ▸ hgrows.outputbuffer)
        | @write final events ep hwrite hsend =>
          obtain ⟨-, hsame, -, -, hinput, -⟩ := hserved.sound.sendClient hsend
          have hlower := (PendingInput.in_level_lower_out ep fd
            (circumstances.writen < connection.outputbuffer.size)).2.2.2
          refine hinv.put rfl (hsame.trans hlower) hpopped hothers fun found hfound ↦ ?_
          cases hfound
          rw [hwrite] at hstreams
          cases hstreams
          refine ⟨hserved.toNoticed.write hwrite hsend rfl, ?_⟩
          simp only [Function.update_self]
          exact hserved.answered.send hinput (output_of_sendClient hsend)
    · cases hloop

/-- Bytes that arrive put the connection on the ready list. -/
theorem Inv.raise {fd : Fd} {events : EventMask} (hinv : Inv state)
    (hloop : next.loop = { state.loop with ep := state.loop.ep.raise fd events })
    (hunread : next.unread fd ≠ [] → state.unread fd ≠ [] ∨ events &&& EPOLLIN ≠ 0)
    (hstreams : ∀ other, other ≠ fd → next.unread other = state.unread other)
    (hreceived : next.received = state.received) (hsent : next.sent = state.sent) : Inv next := by
  refine @Inv.put _ hinv fd next (state.loop.connections fd) ?_ ?_ (fun _ _ hmem ↦ ?_)
    (fun other hother ↦ ⟨hstreams other hother, by rw [hreceived], by rw [hsent]⟩) ?_
  · rw [hloop, Function.update_eq_self]
  · rw [hloop]
    exact EdgeTriggering.sameElse_raise _ _ _
  · rw [hloop]
    exact hmem
  · intro connection hconnection
    have hserved := hinv fd connection hconnection
    exact ⟨hserved.toNoticed.raise hunread hloop, hreceived ▸ hsent ▸ hserved.answered⟩

/-- A connection that is accepted is served. What arrived before is on the ready list. -/
theorem Inv.accept {fd : Fd} {this : ℕ} {now : ℤ} {level : EventMask} {early : Bytes}
    (hinv : Inv state) (hstep : step state (.accept fd this now level early) = some next) :
    Inv next := by
  obtain ⟨⟨loop, main⟩, after, hmoves, hstreams, rfl⟩ :=
    @moves_of_step _ _ (.accept fd this now level early) trivial hstep
  cases hmoves with
  | step hloop =>
    rw [EdgeTriggering.step, Option.ite_none_right_eq_some] at hloop
    rw [streams, Option.ite_none_right_eq_some] at hstreams
    obtain ⟨-, hloop⟩ := hloop
    obtain ⟨hearly, hstreams⟩ := hstreams
    cases hloop
    cases hstreams
    refine hinv.put rfl ⟨fun _ hne ↦ Function.update_of_ne hne _ _,
      fun _ hne ↦ Function.update_of_ne hne _ _, fun _ hne ↦ Function.update_of_ne hne _ _⟩
      (fun _ _ hmem ↦ hmem) (fun other hother ↦ ?_) fun found hfound ↦ ?_
    · simp only [Function.update_of_ne hother, and_self]
    · cases hfound
      refine ⟨?_, ?_⟩
      · simp only [Function.update_self]
        exact PendingInput.noticed_published hearly rfl
      · simp only [Function.update_self]
        exact ⟨[], .refl _, rfl, .inl rfl⟩

/-- A step that changes no connection, no readiness and no stream keeps the invariant, when it keeps
the connections in the batch. -/
theorem Inv.enlarge (hinv : Inv state) {batch : List Pointer}
    (hbatch : ∀ fd, .connection fd ∈ state.loop.batch → .connection fd ∈ batch) :
    Inv { state with loop := { state.loop with batch } } := fun fd connection hconnection ↦
  ⟨(hinv fd connection hconnection).toNoticed.enlarge (hbatch fd),
    (hinv fd connection hconnection).answered⟩

/-- A descriptor taken off the ready list is served by its report, when the report has the readable
event or is still to be handled. -/
theorem Inv.take {fd : Fd} {connection : Connection} (hinv : Inv state)
    (hconnection : state.loop.connections fd = some connection)
    (hreport : state.loop.ep.report fd ≠ 0 → .connection fd ∈ state.loop.batch) :
    let reported := { connection with
      clientchannel := connection.clientchannel.setrevents (state.loop.ep.report fd) }
    Inv { state with loop := state.loop.put fd (some reported) (state.loop.ep.take fd) } := by
  have hserved := hinv fd connection hconnection
  refine hinv.put rfl (EdgeTriggering.sameElse_take _ _) (fun _ _ hmem ↦ hmem)
    (fun _ _ ↦ ⟨rfl, rfl, rfl⟩) fun found hfound ↦ ?_
  cases hfound
  exact ⟨hserved.toNoticed.take hreport, ⟨hserved.answered.stream⟩⟩

/-- Reporting any descriptors keeps the invariant. -/
theorem Inv.report {reported : List Pointer} :
    ∀ {state : State}, Inv state →
      Inv { state with loop := EdgeTriggering.report state.loop reported } := by
  induction reported with
  | nil => exact fun hinv ↦ hinv
  | cons pointer rest ih =>
    intro state hinv
    cases pointer with
    | wakeup => exact ih (hinv.enlarge fun _ hmem ↦ List.mem_append_left _ hmem)
    | connection fd =>
      rw [EdgeTriggering.report]
      split
      · exact ih hinv
      · rename_i connection hconnection
        dsimp only
        split_ifs with hzero
        · exact ih (hinv.take hconnection fun hne ↦ absurd hzero hne)
        · have hlarger : Inv { state with loop := { state.loop with
              batch := state.loop.batch ++ [.connection fd] } } :=
            hinv.enlarge fun _ hmem ↦ List.mem_append_left _ hmem
          exact ih (hlarger.take hconnection fun _ ↦ List.mem_append_right _ List.mem_cons_self)

/-- What the main thread is doing does not matter. -/
theorem Inv.aside (hinv : Inv state) (main : MainThread.Main) : Inv { state with main } :=
  fun fd connection hconnection ↦
    ⟨(hinv fd connection hconnection).toNoticed, (hinv fd connection hconnection).answered⟩

/-- Every undisturbed step keeps the connections served. -/
theorem Inv.step {label : Label} (hinv : Inv state) (hguard : Undisturbed state label)
    (hstep : EchoService.step state label = some next) : Inv next := by
  cases label with
  | accept => exact hinv.accept hstep
  | handleevent => exact hinv.handleevent hguard hstep
  | arrive fd bytes =>
    cases hstep
    refine hinv.raise rfl (fun _ ↦ .inr (by decide)) (fun other hother ↦ ?_) rfl rfl
    exact Function.update_of_ne hother _ _
  | raise fd events =>
    cases hstep
    exact hinv.raise rfl .inl (fun _ _ ↦ rfl) rfl rfl
  | epollWait reported =>
    obtain ⟨⟨loop, main⟩, after, hmoves, hstreams, rfl⟩ := moves_of_step hguard hstep
    cases hstreams
    cases hmoves with
    | step hloop =>
      obtain ⟨-, hnext⟩ := Option.ite_none_right_eq_some.mp hloop
      cases hnext
      exact hinv.report.aside main
  | handleWakeup =>
    obtain ⟨⟨loop, main⟩, after, hmoves, hstreams, rfl⟩ := moves_of_step hguard hstep
    cases hstreams
    cases hmoves with
    | step hloop =>
      rw [EdgeTriggering.step] at hloop
      split at hloop
      · rename_i rest hbatch
        cases hloop
        exact (hinv.enlarge fun fd hmem ↦
          PendingInput.mem_of_pop hbatch (by simp) hmem).aside main
      · cases hloop
  | main action =>
    obtain ⟨⟨loop, main⟩, after, hmoves, hstreams, rfl⟩ := moves_of_step hguard hstep
    cases hstreams
    cases hmoves with
    | evict fd hbatch =>
      exact hinv.put rfl (EdgeTriggering.sameElse_close _ _) (fun _ _ hmem ↦ hmem)
        (fun _ _ ↦ ⟨rfl, rfl, rfl⟩) fun _ hnone ↦ by cases hnone
    | stay => exact hinv.aside main

end Steps

/-- A server without connections serves all. -/
theorem Inv.initial {state : State} (hinitial : MainThread.Initial state.toState) : Inv state := by
  intro fd connection hconnection
  rw [hinitial.loop.connections] at hconnection
  cases hconnection

/-- In every state of an undisturbed run, all live connections are served. -/
theorem inv_of_undisturbed {state : State} (hreach : system.ReachesUnder Undisturbed state) :
    Inv state :=
  hreach.invariant Inv (fun _ ↦ .initial) fun _ _ _ hinv hguard hstep ↦ hinv.step hguard hstep

/-- In a run that also rearms, output is going to be sent. -/
theorem armed_of_smooth {state : State} (hreach : system.ReachesUnder Smooth state) :
    EdgeTriggering.Inv none state.loop := by
  refine hreach.invariant (fun reached ↦ EdgeTriggering.Inv none reached.loop) ?_ ?_
  · rintro state (hinitial : MainThread.Initial state.toState)
    exact .initial hinitial.loop
  · rintro before label after harmed ⟨hguard, hrearming⟩ hstep
    obtain ⟨server, streams, hmoves, -, rfl⟩ := moves_of_step hguard hstep
    exact hmoves.inv hrearming harmed

/-! ### What a peer gets -/

section Results

variable {state : State} {fd : Fd} {connection : Connection}

/-- The echo of what was received is what was answered, and then the answers to what is left of the
input buffer. -/
theorem Answered.echo_eq {received sent : Bytes} (hanswered : Answered received sent connection) :
    echo received = sent ++ connection.outputbuffer.buf ++
      answers (frameParser.items connection.inputbuffer.buf) := by
  obtain ⟨consumed, hadvance, hstream, -⟩ := hanswered.stream
  rw [hstream, echo, hadvance.items_eq, answers_append]

/-- The drain stops before the end of the complete requests only at a `" "`. -/
theorem Answered.all_answered {received sent : Bytes}
    (hanswered : Answered received sent connection)
    (hnot : noMessage ∉ frameParser.items received) :
    sent ++ connection.outputbuffer.buf = echo received := by
  obtain ⟨consumed, hadvance, hstream, hstopped⟩ := hanswered.stream
  have hnext : frameParser.next connection.inputbuffer.buf = none := by
    refine hstopped.resolve_right ?_
    rintro ⟨front, rfl⟩
    apply hnot
    rw [hadvance.items_eq]
    simp
  rw [hstream, echo, hadvance.items_eq, StreamParser.items_of_none hnext, List.append_nil]

/-- A service without connections. -/
def start : State := ⟨MainThread.start, fun _ ↦ [], fun _ ↦ [], fun _ ↦ []⟩

/-- An empty request has been read, answered, and its reply sent. -/
theorem exists_answered : ∃ state connection, system.ReachesUnder Smooth state ∧
    state.loop.connections 7 = some connection ∧ state.loop.batch = [] ∧
    state.loop.ep.ready 7 = false ∧ state.loop.ep.level 7 &&& EPOLLOUT ≠ 0 ∧
    frameParser.items (state.received 7) = [[]] := by
  let labels : List Label := [.accept 7 7 0 EPOLLOUT [], .main .setcallback, .main .setcallback,
    .arrive 7 (encode []), .epollWait [.connection 7], .main .setcallback, .main .setcallback,
    .main .setcallback,
    .handleevent ⟨.still, [.data ⟨encode [], by decide⟩, .failed EAGAIN], 0⟩,
    .epollWait [.connection 7], .handleevent ⟨.still, [], 10⟩]
  have hguarded : system.GuardedRun Smooth start labels := by decide +kernel
  have hfinal : (system.run start labels).map (fun state ↦ decide (state.loop.batch = [] ∧
      (state.loop.connections 7).isSome = true ∧ state.loop.ep.ready 7 = false ∧
      state.loop.ep.level 7 &&& EPOLLOUT ≠ 0 ∧ state.received 7 = encode [])) = some true := by
    decide +kernel
  obtain ⟨state, hrun, hstate⟩ := Option.map_eq_some_iff.mp hfinal
  obtain ⟨hbatch, hlive, hready, hlevel, hreceived⟩ := of_decide_eq_true hstate
  obtain ⟨connection, hconnection⟩ := Option.isSome_iff_exists.mp hlive
  refine ⟨state, connection, .of_run (.initial (by exact MainThread.start_initial)) labels hguarded
    hrun, hconnection,
    hbatch, hready, hlevel, ?_⟩
  have hitems := @items_encodeAll [[]] (by simp [maxPayload])
  rwa [List.flatMap_singleton, ← hreceived] at hitems

/-- In every undisturbed run, when the loop is back at `epoll_wait` and a connection is not on the
ready list, all that has arrived on it has been read; and without a request `" "`, the echo of all
of it has been sent or waits in the output buffer. -/
theorem echo_at_rest (hreach : system.ReachesUnder Undisturbed state)
    (hconnection : state.loop.connections fd = some connection) (hbatch : state.loop.batch = [])
    (hready : state.loop.ep.ready fd = false) :
    state.unread fd = [] ∧ (noMessage ∉ frameParser.items (state.received fd) →
      state.sent fd ++ connection.outputbuffer.buf = echo (state.received fd)) := by
  have hserved := inv_of_undisturbed hreach fd connection hconnection
  exact ⟨hserved.unread_eq_nil hbatch hready, hserved.answered.all_answered⟩

theorem echo_at_rest_answered : ∃ (state : State) (connection : Connection),
    frameParser.items (state.received 7) = [[]] ∧
      state.unread 7 = [] ∧ (noMessage ∉ frameParser.items (state.received 7) →
        state.sent 7 ++ connection.outputbuffer.buf = echo (state.received 7)) := by
  obtain ⟨state, connection, hreach, hconnection, hbatch, hready, -, hitems⟩ := exists_answered
  exact ⟨state, connection, hitems,
    echo_at_rest (hreach.mono fun _ _ ↦ And.left) hconnection hbatch hready⟩

/-- In a smooth run, what is at rest and writable has been answered. -/
theorem sent_eq_echo (hreach : system.ReachesUnder Smooth state)
    (hconnection : state.loop.connections fd = some connection) (hbatch : state.loop.batch = [])
    (hready : state.loop.ep.ready fd = false)
    (hwritable : state.loop.ep.level fd &&& EPOLLOUT ≠ 0)
    (hnot : noMessage ∉ frameParser.items (state.received fd)) :
    state.unread fd = [] ∧ state.sent fd = echo (state.received fd) := by
  have hserved := inv_of_undisturbed (hreach.mono fun _ _ ↦ And.left) fd connection hconnection
  have houtput : connection.outputbuffer.buf = [] :=
    (armed_of_smooth hreach).output_eq_nil hconnection hbatch hready hwritable
  have hsent := hserved.answered.all_answered hnot
  rw [houtput, List.append_nil] at hsent
  exact ⟨hserved.unread_eq_nil hbatch hready, hsent⟩

/-- The parser of a peer reads the replies back. -/
theorem items_answers {requests : List Bytes}
    (hlength : ∀ request ∈ requests, request.length ≤ 2147483637) :
    frameParser.items (answers requests) =
      (requests.filter fun request ↦ request ≠ noMessage).map ReplyFraming.reply := by
  have hencoded : answers requests =
      ((requests.filter fun request ↦ request ≠ noMessage).map ReplyFraming.reply).flatMap
        encode := by
    rw [List.flatMap_map]
    rfl
  rw [hencoded, items_encodeAll]
  intro reply hreply
  obtain ⟨request, hrequest, rfl⟩ := List.mem_map.mp hreply
  have hbound := hlength request (List.mem_filter.mp hrequest).1
  rw [ReplyFraming.length_reply, maxPayload]
  omega

/-- In a run that is undisturbed and rearms, when the loop is back at `epoll_wait`, and a connection
is not on the ready list though its socket is writable: all that has arrived has been read, and
without a request `" "` its echo is what has been sent. The peer then reads the reply to each of its
requests, in order, when none is of the longest. -/
theorem echoed (hreach : system.ReachesUnder Smooth state)
    (hconnection : state.loop.connections fd = some connection) (hbatch : state.loop.batch = [])
    (hready : state.loop.ep.ready fd = false)
    (hwritable : state.loop.ep.level fd &&& EPOLLOUT ≠ 0)
    (hnot : noMessage ∉ frameParser.items (state.received fd)) :
    state.unread fd = [] ∧ state.sent fd = echo (state.received fd) ∧
      ((∀ request ∈ frameParser.items (state.received fd), request.length ≤ 2147483637) →
        frameParser.items (state.sent fd) =
          (frameParser.items (state.received fd)).map ReplyFraming.reply) := by
  obtain ⟨hunread, hsent⟩ := sent_eq_echo hreach hconnection hbatch hready hwritable hnot
  refine ⟨hunread, hsent, fun hlength ↦ ?_⟩
  rw [hsent, echo, items_answers hlength, List.filter_eq_self.mpr]
  exact fun request hrequest ↦ decide_eq_true fun heq ↦ hnot (heq ▸ hrequest)

theorem echoed_answered : ∃ state : State,
    frameParser.items (state.received 7) = [[]] ∧
      frameParser.items (state.sent 7) = [ReplyFraming.reply []] := by
  obtain ⟨state, connection, hreach, hconnection, hbatch, hready, hlevel, hitems⟩ := exists_answered
  have hnot : noMessage ∉ frameParser.items (state.received 7) := by simp [hitems, noMessage]
  obtain ⟨-, -, hread⟩ := echoed hreach hconnection hbatch hready hlevel hnot
  rw [hitems] at hread
  exact ⟨state, hitems, hread (by simp)⟩

/-! ### The streams of one connection -/

/-- The step is neither the accept of a descriptor nor an arrival on it. -/
def Apart (fd : Fd) : Label → Prop
  | .accept other _ _ _ _ | .arrive other _ => other ≠ fd
  | .raise _ _ | .epollWait _ | .handleevent _ | .handleWakeup | .main _ => True

instance (fd : Fd) : ∀ label, Decidable (Apart fd label)
  | .accept other _ _ _ _ | .arrive other _ => inferInstanceAs (Decidable (other ≠ fd))
  | .raise _ _ | .epollWait _ | .handleevent _ | .handleWakeup | .main _ => .isTrue trivial

theorem connection_of_current {loop : EdgeTriggering.State}
    (hcurrent : loop.current = some (fd, connection)) : loop.connections fd = some connection := by
  unfold EdgeTriggering.State.current at hcurrent
  split at hcurrent
  · obtain ⟨found, hfound, heq⟩ := Option.map_eq_some_iff.mp hcurrent
    cases heq
    exact hfound
  · cases hcurrent

/-- Such a step reads from the connection, or sends on it some of what is to be sent, or leaves its
streams alone. -/
theorem streams_apart {label : Label} {next : State} (hinv : Inv state) (hapart : Apart fd label)
    (hstep : step state label = some next) :
    (next.received fd ++ next.unread fd = state.received fd ++ state.unread fd ∧
        state.received fd <+: next.received fd ∧ next.sent fd = state.sent fd) ∨
      (next.received fd = state.received fd ∧ next.unread fd = state.unread fd ∧
        state.sent fd <+: next.sent fd ∧ next.sent fd <+: echo (state.received fd)) := by
  rw [step] at hstep
  split at hstep
  · rename_i loop after hloop hstreams
    cases hstep
    cases label with
    | raise | epollWait | handleWakeup | main =>
      cases hstreams
      exact .inl ⟨rfl, List.prefix_refl _, rfl⟩
    | accept other this now level early =>
      simp only [streams] at hstreams
      split_ifs at hstreams
      cases hstreams
      left
      simp [Function.update_of_ne (Ne.symm hapart)]
    | arrive other bytes =>
      cases hstreams
      left
      simp [Function.update_of_ne (Ne.symm hapart)]
    | handleevent circumstances =>
      simp only [streams] at hstreams
      split at hstreams
      · cases hstreams
      · rename_i other connection hcurrent
        have hconnection := connection_of_current hcurrent
        by_cases hother : fd = other
        · subst hother
          split at hstreams
          · split_ifs at hstreams
            cases hstreams
            left
            simp
          · cases hstreams
            have hanswered := (hinv fd connection hconnection).answered
            refine .inr ⟨rfl, rfl, ?_⟩
            simp only [Function.update_self]
            refine ⟨List.prefix_append _ _, ?_⟩
            rw [hanswered.echo_eq, ← taken_append_unsent circumstances.writen connection,
              ← List.append_assoc (state.sent fd), List.append_assoc]
            exact List.prefix_append _ _
          · cases hstreams
            exact .inl ⟨rfl, List.prefix_refl _, rfl⟩
        · left
          split at hstreams
          · split_ifs at hstreams
            cases hstreams
            simp [Function.update_of_ne hother]
          · cases hstreams
            simp [Function.update_of_ne hother]
          · cases hstreams
            exact ⟨rfl, List.prefix_refl _, rfl⟩
  · cases hstep

end Results

end Reactor.EchoService
