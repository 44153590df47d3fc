import Reactor.ReplyPipeline

/-!
# How far the replies get out of order

With several workers the replies of a connection need not be in the order of its requests. But the
workers take the requests in order, so that when a reply is handed over, all earlier requests have
been taken, and those without a reply are with the other workers: a reply comes before fewer replies
to earlier requests than there are workers (`overtakes_fewer`). Nothing bounds by how many later
replies one is overtaken.

A peer that waits for the reply before its next request, as the client of the repository does,
leaves no request to overtake: whatever the number of workers, its replies come in order
(`patient_ordered`). More generally a peer may have up to `window` requests without reply.
-/

set_option autoImplicit false
set_option relaxedAutoImplicit false

namespace Reactor.ReplyOrder

open Library ReplyPipeline

/-- A request is dispatched only while fewer than `window` requests of its connection are without a
reply in the output buffer. -/
def Windowed (window : ℕ) (state : State) : Label → Prop
  | .handleMessage fd _ => (state.dispatched fd).length < (state.appended fd).length + window
  | _ => True

instance (window : ℕ) (state : State) : ∀ label, Decidable (Windowed window state label)
  | .handleMessage fd _ =>
    inferInstanceAs (Decidable ((state.dispatched fd).length < (state.appended fd).length + window))
  | .take _ | .handledata _ | .wakeup _ | .handleWakeup _ | .runTask _ | .release _
  | .sendClient _ _ => .isTrue trivial

section Runs

variable {loopOf : Fd → ℕ} {workers window : ℕ} {state next : State} {fd : Fd}

/-- No more requests of a connection are worked on than there are workers. -/
theorem length_working_le (hinv : Inv loopOf workers state) :
    (pipeline loopOf state fd).working.length ≤ workers := by
  have hrequests : (pipeline loopOf state fd).working.length ≤ state.pool.running.length :=
    List.length_filterMap_le _ _
  have hrunning : state.pool.running.length ≤ state.pool.threads.length :=
    List.length_filterMap_le _ _
  have hsize : state.pool.threads.length = workers := hinv.size
  omega

theorem overtaking_of_initial (hinitial : Initial loopOf workers state) (width : ℕ) :
    (pipeline loopOf state fd).Overtaking width := by
  rw [hinitial.pipeline_eq]
  exact ⟨⟨[], List.Perm.refl _, rfl⟩, fun _ _ hitem ↦ by cases hitem⟩

/-- While at most `width` requests of a connection are worked on, no reply overtakes as many. -/
theorem overtaking_of_effect {width : ℕ} {label : Label} (hinv : Inv loopOf workers state)
    (hwidth : 0 < width) (hworking : (pipeline loopOf state fd).working.length ≤ width)
    (hovertaking : (pipeline loopOf state fd).Overtaking width)
    (heffect : Effect loopOf state label next) : (pipeline loopOf next fd).Overtaking width := by
  have hmove : Pipeline.Move (fun _ ↦ True) (pipeline loopOf state fd) (pipeline loopOf next fd) :=
    hinv.move heffect fun _ _ _ _ _ ↦ trivial
  exact hovertaking.move hwidth hworking hmove

/-- In every run, no reply overtakes as many others as there are workers. -/
theorem overtaking_of_reachable (hreach : (system loopOf workers).Reachable state) :
    (pipeline loopOf state fd).Overtaking (max workers 1) := by
  induction hreach with
  | initial hinitial => exact overtaking_of_initial hinitial _
  | step hbefore _ hstep ih =>
    have hinv := (inv_of_reachable hbefore).1
    have hworking := @length_working_le _ _ _ fd hinv
    exact overtaking_of_effect hinv (by omega) (by omega) ih (effect_of_step hinv hstep)

/-- In every run, what the kernel has accepted of a connection and its output buffer are together
reply frames of distinct requests, and the one at an index is the reply to one of the first
`index + workers` requests (of the first `index + 1` without workers). -/
theorem overtakes_fewer (hreach : (system loopOf workers).Reachable state) (fd : Fd) :
    ∃ replied : List Request, replied.Nodup ∧
      state.accepted fd ++ (state.connections fd).outputbuffer.buf =
        replied.flatMap (fun request ↦ handledata request.1) ∧
      Pipeline.Near (max workers 1) replied (requests state fd) := by
  obtain ⟨hinv, hconserved⟩ := inv_of_reachable hreach
  refine ⟨state.appended fd, ?_, hinv.stream fd, (overtaking_of_reachable hreach).near.of_append⟩
  exact (hconserved fd).delivered_nodup (requests_nodup state fd)

/-- Three workers take a request each, and the last one is done first. -/
theorem overtakes_fewer_three : ∃ state, (system (fun _ ↦ 0) 3).Reachable state ∧
    state.appended 5 = [([], 2)] ∧ ∃ replied : List Request, replied.Nodup ∧
      state.accepted 5 ++ (state.connections 5).outputbuffer.buf =
        replied.flatMap (fun request ↦ handledata request.1) ∧
      Pipeline.Near (max 3 1) replied (requests state 5) := by
  have hreach : ∃ state, (system (fun _ ↦ 0) 3).Reachable state ∧
      state.appended 5 = [([], 2)] :=
    ⟨_, .of_run (.initial (start_initial _ 3))
      [.handleMessage 5 [], .handleMessage 5 [], .handleMessage 5 [], .take 0, .take 1, .take 2,
        .handledata 2, .wakeup 2, .handleWakeup 0, .runTask 0] rfl, rfl⟩
  obtain ⟨state, hstate, happended⟩ := hreach
  exact ⟨state, hstate, happended, overtakes_fewer hstate 5⟩

/-! ### Peers that wait -/

/-- On every connection the requests without a reply fit into the window. -/
def Within (window : ℕ) (state : State) : Prop :=
  ∀ fd, (state.dispatched fd).length ≤ (state.appended fd).length + window

theorem Within.effect {label : Label} (hwithin : Within window state)
    (hguard : Windowed window state label) (heffect : Effect loopOf state label next) :
    Within window next := by
  intro fd
  have hbefore := hwithin fd
  cases heffect with
  | enqueue other message =>
    by_cases hother : fd = other
    · subst hother
      simp only [counted, Function.update_self, List.length_append, List.length_singleton]
      exact hguard
    · simpa only [counted, Function.update_of_ne hother] using hbefore
  | @answer other message _ _ hanswers =>
    obtain ⟨-, -⟩ := hanswers
    by_cases hother : fd = other
    · subst hother
      simp only [served, counted, nextJob, Function.update_self, List.length_append,
        List.length_singleton]
      omega
    · simpa only [served, counted, nextJob, Function.update_of_ne hother] using hbefore
  | @runTask _ reply _ _ _ hanswers =>
    obtain ⟨-, -⟩ := hanswers
    by_cases hother : fd = reply.job.fd
    · subst hother
      simp only [served, Function.update_self, List.length_append, List.length_singleton]
      omega
    · simpa only [served, Function.update_of_ne hother] using hbefore
  | take | handOver | loop | wakeup | send => exact hbefore

/-- Within a window no more requests of a connection are worked on than fit into it. -/
theorem length_working_le_window (hwithin : Within window state)
    (hconserved : (pipeline loopOf state fd).Conserved) :
    (pipeline loopOf state fd).working.length ≤ window := by
  have hlength := hconserved.length_eq
  simp only [List.length_append] at hlength
  have hissued : (pipeline loopOf state fd).issued.length = (state.dispatched fd).length :=
    List.length_zipIdx
  have hdelivered : (pipeline loopOf state fd).delivered.length = (state.appended fd).length := rfl
  have hwindow := hwithin fd
  omega

/-- In every run in which the peers keep to a window no reply overtakes as many others. -/
theorem overtaking_of_windowed (hwindow : 0 < window)
    (hreach : (system loopOf workers).ReachesUnder (Windowed window) state) :
    Within window state ∧ ∀ fd, (pipeline loopOf state fd).Overtaking window := by
  induction hreach with
  | initial hinitial =>
    refine ⟨fun fd ↦ ?_, fun fd ↦ overtaking_of_initial hinitial _⟩
    rw [hinitial.dispatched]
    exact Nat.zero_le _
  | step hbefore hguard hstep ih =>
    obtain ⟨hwithin, hovertaking⟩ := ih
    obtain ⟨hinv, hconserved⟩ := inv_of_reachable hbefore.reachable
    have heffect := effect_of_step hinv hstep
    refine ⟨hwithin.effect hguard heffect, fun fd ↦ ?_⟩
    have hworking := length_working_le_window hwithin (hconserved fd)
    exact overtaking_of_effect hinv hwindow hworking (hovertaking fd) heffect

/-- With peers that wait, the replies of a connection are those to its first requests. -/
theorem appended_eq_take (hreach : (system loopOf workers).ReachesUnder (Windowed 1) state)
    (fd : Fd) : state.appended fd = (requests state fd).take (state.appended fd).length := by
  obtain ⟨-, hovertaking⟩ := overtaking_of_windowed Nat.one_pos hreach
  have hconserved := (inv_of_reachable hreach.reachable).2 fd
  exact (hovertaking fd).near.of_append.eq_take
    (hconserved.delivered_nodup (requests_nodup state fd))

/-- In every run in which a request is dispatched only when all earlier ones of its connection have
their replies, with any number of workers: what the kernel has accepted of a connection and its
output buffer are together the reply frames of all messages dispatched but the last, or of all, in
the order of dispatch. -/
theorem patient_ordered (hreach : (system loopOf workers).ReachesUnder (Windowed 1) state)
    (fd : Fd) :
    ∃ count, (state.dispatched fd).length ≤ count + 1 ∧
      state.accepted fd ++ (state.connections fd).outputbuffer.buf =
        ((state.dispatched fd).take count).flatMap handledata := by
  obtain ⟨hinv, -⟩ := inv_of_reachable hreach.reachable
  obtain ⟨hwithin, -⟩ := overtaking_of_windowed Nat.one_pos hreach
  refine ⟨(state.appended fd).length, hwithin fd, ?_⟩
  rw [← flatMap_take_requests, hinv.stream]
  exact congrArg (List.flatMap _) (appended_eq_take hreach fd)

/-- Two workers answer `"a"` and then `"b"`. -/
theorem patient_ordered_two : ∃ state, (system (fun _ ↦ 0) 2).ReachesUnder (Windowed 1) state ∧
    state.dispatched 5 = [[97], [98]] ∧ ∃ count, (state.dispatched 5).length ≤ count + 1 ∧
      state.accepted 5 ++ (state.connections 5).outputbuffer.buf =
        ((state.dispatched 5).take count).flatMap handledata := by
  have hreach : ∃ state, (system (fun _ ↦ 0) 2).ReachesUnder (Windowed 1) state ∧
      state.dispatched 5 = [[97], [98]] := by
    refine ⟨_, .of_run (.initial (start_initial _ 2))
      [.handleMessage 5 [97], .take 0, .handledata 0, .wakeup 0, .handleWakeup 0, .runTask 0,
        .release 0, .handleMessage 5 [98], .take 1, .handledata 1, .wakeup 1, .handleWakeup 0,
        .runTask 0] ?_ rfl, ?_⟩
    · decide
    · rfl
  obtain ⟨state, hstate, hdispatched⟩ := hreach
  exact ⟨state, hstate, hdispatched, patient_ordered hstate 5⟩

end Runs

end Reactor.ReplyOrder
