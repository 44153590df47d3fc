import Reactor.Connection
import Reactor.Lifetime
import Reactor.Library.OrderedMap
import Mathlib.Data.Nat.Basic

/-!
# Eviction by the timer

`Tcpserver::connections` is shared: the main thread inserts into it in `newconnection` and walks
over it in `handle_timer`, where it erases and deletes the connections that have timed out, and the
threads of the sub-loops erase and delete the connections that close or fail. The mutex is held for
each insertion and each `erase`, not for the walk and not from the test of a callback to the
`delete`.

`step` makes each block that holds the mutex one step, and each other statement of `newconnection`,
`handle_timer`, `close_client` and `closeconnection` (or of their twins for errors) one of its own.
`epoll_wait` reports live objects only, but the handlers of a batch run one after the other, on the
pointers that were reported: a handler, and a close in it, may start at an object that the timer has
deleted since. Such an object reads as anything: `callback` is told what.

`Exact` is what the map and the objects are to be like. It holds in every run whose steps are
`Exclusive`: a sub-loop erases a connection only while the iterator of `handle_timer` is not at its
entry; the timer erases a connection only while no close of it is past the test of the callback, and
deletes it only while no report of it is left to handle or being handled (`exact_of_exclusive`).
-/

set_option autoImplicit false
set_option relaxedAutoImplicit false

namespace Reactor.Eviction

open Library
open Connection (setcallback)
open Lifetime (Conn loopOf)

/-- What the main thread is doing. -/
inductive MainPhase
  | idle
  /-- It is in `newconnection`, past the constructor. -/
  | inserting (conn : Conn)
  /-- It is in `newconnection` and has set some of the four callbacks. -/
  | setting (conn : Conn) (count : ℕ)
  /-- It is at the head of the loop of `handle_timer`. -/
  | testing (it : Option Fd)
  /-- It is before `++it`. -/
  | advancing (it : Fd)
  /-- It is before the copy of `it->second`. -/
  | copying (it : Fd)
  /-- It has cleared some of the four callbacks. -/
  | clearing (it : Fd) (conn : Conn) (count : ℕ)
  /-- It is past the `erase`, which returned the iterator, and before the `delete`. -/
  | deleting (conn : Conn) (it : Option Fd)
  deriving DecidableEq

/-- What the thread of a sub-loop is doing. -/
inductive LoopPhase
  /-- It is between two handlers, or in `epoll_wait` when its batch is empty. -/
  | idle
  /-- It is in `handleevent` of the channel of an object, and in no close. -/
  | handling (conn : Conn)
  /-- It is in `close_client` or `error_client`, before the test of the callback. -/
  | closing (conn : Conn) (failed : Bool)
  /-- It is in `closeconnection` or `errorconnection`. -/
  | entered (conn : Conn)
  /-- It is past the callback of the server. -/
  | erasing (conn : Conn)
  /-- It is past the `erase`. -/
  | deleting (conn : Conn)
  deriving DecidableEq

/-- The key the iterator of `handle_timer` is at. -/
def MainPhase.iterator? : MainPhase → Option Fd
  | .testing it | .deleting _ it => it
  | .advancing it | .copying it | .clearing it _ _ => some it
  | .idle | .inserting _ | .setting _ _ => none

/-- The object that the main thread has built and not inserted, or erased and not deleted. -/
def MainPhase.outside? : MainPhase → Option Conn
  | .inserting conn | .deleting conn _ => some conn
  | _ => none

/-- The object that `handle_timer` erases next. -/
def MainPhase.erasing? : MainPhase → Option Conn
  | .clearing _ conn count => if 4 ≤ count then some conn else none
  | _ => none

/-- The object that `handle_timer` deletes next. -/
def MainPhase.deleting? : MainPhase → Option Conn
  | .deleting conn _ => some conn
  | _ => none

/-- The object whose handler is running. -/
def LoopPhase.conn? : LoopPhase → Option Conn
  | .handling conn | .closing conn _ | .entered conn | .erasing conn | .deleting conn => some conn
  | .idle => none

/-- The object a close is in progress of, past the test of the callback. -/
def LoopPhase.passed? : LoopPhase → Option Conn
  | .entered conn | .erasing conn | .deleting conn => some conn
  | .idle | .handling _ | .closing _ _ => none

theorem LoopPhase.conn?_of_passed? {phase : LoopPhase} {conn : Conn}
    (hpassed : phase.passed? = some conn) : phase.conn? = some conn := by
  cases phase with
  | idle | handling | closing => cases hpassed
  | entered | erasing | deleting => exact hpassed

/-- The thread of a sub-loop, with the objects whose channels `epoll_wait` has reported to it and
whose handlers have not started. -/
structure IoLoop where
  phase : LoopPhase
  batch : List Conn
  deriving DecidableEq

/-- A loop in `epoll_wait`. -/
def IoLoop.idle : IoLoop := ⟨.idle, []⟩

/-- The objects whose handlers are running or still to run, of those last reported. -/
def IoLoop.reported (io : IoLoop) : List Conn := io.phase.conn?.toList ++ io.batch

theorem IoLoop.mem_reported {io : IoLoop} {conn : Conn} (hconn : io.phase.conn? = some conn) :
    conn ∈ io.reported := by
  rw [IoLoop.reported, hconn]
  exact List.mem_cons_self

structure State where
  connections : OrderedMap Fd Conn
  objects : Conn → Connection
  /-- The number of objects built on each descriptor. -/
  opened : Fd → ℕ
  /-- How often each object has been deleted. -/
  deleted : Conn → ℕ
  main : MainPhase
  loops : ℕ → IoLoop
  /-- The variable `now` of `handle_timer`. -/
  now : ℤ

/-- An object that has been built and not deleted. -/
def State.Live (state : State) (conn : Conn) : Prop :=
  conn.2 < state.opened conn.1 ∧ state.deleted conn = 0

instance (state : State) (conn : Conn) : Decidable (state.Live conn) :=
  inferInstanceAs (Decidable (_ ∧ _))

inductive Label
  | accept (fd : Fd) (this : ℕ) (now : ℤ)
  | newconnection
  | timerfd (now : ℤ)
  | handleTimer
  | epollWait (loop : ℕ) (reported : List Conn)
  | handleevent (loop : ℕ)
  | onmessage (loop : ℕ) (now : ℤ)
  | return (loop : ℕ)
  | closeClient (loop : ℕ) (failed : Bool)
  | callback (loop : ℕ) (freed : Bool)
  | closeconnection (loop : ℕ)
  | erase (loop : ℕ)
  | delete (loop : ℕ)

/-- An object is assigned to. -/
def State.assign (state : State) (conn : Conn) (connection : Connection) : State :=
  { state with objects := Function.update state.objects conn connection }

/-- An object is deleted. -/
def State.delete (state : State) (conn : Conn) : State :=
  { state with deleted := Function.update state.deleted conn (state.deleted conn + 1) }

/-- The thread of a sub-loop goes on. -/
def State.setLoop (state : State) (loop : ℕ) (io : IoLoop) : State :=
  { state with loops := Function.update state.loops loop io }

/-- The thread of a sub-loop goes on, with the same batch. -/
def State.setPhase (state : State) (loop : ℕ) (phase : LoopPhase) : State :=
  state.setLoop loop { state.loops loop with phase }

/-- The next step of `newconnection` after the constructor. -/
def newconnection (state : State) : Option State :=
  match state.main with
  | .inserting conn =>
    some { state with
      connections := state.connections.insert conn.1 conn, main := .setting conn 0 }
  | .setting conn count =>
    if count < 4 then
      some { state.assign conn (setcallback count true (state.objects conn)) with
        main := .setting conn (count + 1) }
    else some { state with main := .idle }
  | _ => none

section Steps

variable (threadnum : ℕ) (timeout : ℤ)

/-- The next step of `handle_timer`. An iterator to an entry that is gone has no next step. -/
def handleTimer (state : State) : Option State :=
  match state.main with
  | .testing none => some { state with main := .idle }
  | .testing (some it) =>
    match state.connections.get? it with
    | none => none
    | some conn =>
      some { state with
        main := if (state.objects conn).timeout state.now timeout then .copying it
          else .advancing it }
  | .advancing it =>
    match state.connections.get? it with
    | none => none
    | some _ => some { state with main := .testing (state.connections.next? it) }
  | .copying it =>
    match state.connections.get? it with
    | none => none
    | some conn => some { state with main := .clearing it conn 0 }
  | .clearing it conn count =>
    if count < 4 then
      some { state.assign conn (setcallback count false (state.objects conn)) with
        main := .clearing it conn (count + 1) }
    else
      match state.connections.get? it with
      | none => none
      | some _ =>
        some { state with
          connections := state.connections.erase it
          main := .deleting conn (state.connections.next? it) }
  | .deleting conn it => some { state.delete conn with main := .testing it }
  | _ => none

def step (state : State) : Label → Option State
  | .accept fd this now =>
    if state.main = .idle ∧ ∀ earlier, earlier < state.opened fd → ¬ state.Live (fd, earlier) then
      some { state.assign (fd, state.opened fd) (.constructed this fd now) with
        opened := Function.update state.opened fd (state.opened fd + 1)
        main := .inserting (fd, state.opened fd) }
    else none
  | .newconnection => newconnection state
  | .timerfd now =>
    if state.main = .idle then
      some { state with now, main := .testing state.connections.first? }
    else none
  | .handleTimer => handleTimer timeout state
  | .epollWait loop reported =>
    if (state.loops loop).phase = .idle ∧ (state.loops loop).batch = [] ∧ reported.Nodup ∧
        ∀ conn ∈ reported, loopOf threadnum conn = loop ∧ state.Live conn then
      some (state.setLoop loop ⟨.idle, reported⟩)
    else none
  | .handleevent loop =>
    match state.loops loop with
    | ⟨.idle, conn :: rest⟩ => some (state.setLoop loop ⟨.handling conn, rest⟩)
    | _ => none
  | .onmessage loop now =>
    match (state.loops loop).phase with
    | .handling conn => some (state.assign conn { state.objects conn with lastTime := now })
    | _ => none
  | .return loop =>
    match (state.loops loop).phase with
    | .handling _ => some (state.setPhase loop .idle)
    | _ => none
  | .closeClient loop failed =>
    match (state.loops loop).phase with
    | .handling conn =>
      some ((state.assign conn
        (if failed then (state.objects conn).errorClient.1 else (state.objects conn).closeClient.1)
        ).setPhase loop (.closing conn failed))
    | _ => none
  | .callback loop freed =>
    match (state.loops loop).phase with
    | .closing conn failed =>
      let set := if state.Live conn then (state.objects conn).callbackSet failed else freed
      some (state.setPhase loop (if set then .entered conn else .idle))
    | _ => none
  | .closeconnection loop =>
    match (state.loops loop).phase with
    | .entered conn => some (state.setPhase loop (.erasing conn))
    | _ => none
  | .erase loop =>
    match (state.loops loop).phase with
    | .erasing conn =>
      some ({ state with connections := state.connections.erase conn.1 }.setPhase loop
        (.deleting conn))
    | _ => none
  | .delete loop =>
    match (state.loops loop).phase with
    | .deleting conn => some ((state.delete conn).setPhase loop .idle)
    | _ => none

/-- The server before the first connection. -/
structure Initial (state : State) : Prop where
  connections : state.connections = .empty
  opened : state.opened = fun _ ↦ 0
  deleted : state.deleted = fun _ ↦ 0
  main : state.main = .idle
  loops : state.loops = fun _ ↦ .idle

/-- The system, for a number of sub-loops and the time after which a connection is evicted. -/
def system : TransitionSystem State Label where
  initial := Initial
  step := step threadnum timeout

/-- No operation is in progress. -/
def Quiet (state : State) : Prop := state.main = .idle ∧ ∀ loop, (state.loops loop).phase = .idle

/-- What the map and the objects are to be like. -/
structure Exact (state : State) : Prop where
  once : ∀ conn, state.deleted conn ≤ 1
  evaluates : ∀ it, state.main = .testing (some it) →
    ∃ conn, state.connections.get? it = some conn ∧ state.Live conn
  erases : ∀ it conn, state.main = .clearing it conn 4 → state.connections.get? it = some conn
  values : Quiet state → ∀ fd conn,
    state.connections.get? fd = some conn ↔ state.Live conn ∧ conn.1 = fd

/-- The timer and a sub-loop keep away from an entry that the other is at, and the timer from an
object that a sub-loop has a report of. -/
def Exclusive (state : State) : Label → Prop
  | .erase loop => ∀ conn ∈ (state.loops loop).phase.conn?, state.main.iterator? ≠ some conn.1
  | .handleTimer =>
    (∀ conn ∈ state.main.erasing?,
      (state.loops (loopOf threadnum conn)).phase.passed? ≠ some conn) ∧
      ∀ conn ∈ state.main.deleting?, conn ∉ (state.loops (loopOf threadnum conn)).reported
  | _ => True

instance (state : State) : ∀ label, Decidable (Exclusive threadnum state label)
  | .erase loop =>
    inferInstanceAs (Decidable (∀ conn ∈ (state.loops loop).phase.conn?,
      state.main.iterator? ≠ some conn.1))
  | .handleTimer => inferInstanceAs (Decidable (_ ∧ _))
  | .accept _ _ _ | .newconnection | .timerfd _ | .epollWait _ _ | .handleevent _ | .onmessage _ _
  | .return _ | .closeClient _ _ | .callback _ _ | .closeconnection _ | .delete _ => .isTrue trivial

end Steps

/-! ### The invariant -/

/-- The callbacks a close tests are null as far as `handle_timer` has cleared them. -/
def Cleared (count : ℕ) (connection : Connection) : Prop :=
  (1 ≤ count → connection.callbackSet false = false) ∧
    (2 ≤ count → connection.callbackSet true = false)

/-- An object that only the main thread can delete. -/
structure Outside (threadnum : ℕ) (state : State) (conn : Conn) : Prop where
  live : state.Live conn
  silent : ∀ failed, (state.objects conn).callbackSet failed = false
  absent : state.connections.get? conn.1 = none
  notPassed : (state.loops (loopOf threadnum conn)).phase.passed? ≠ some conn

/-- A sub-loop has reports of live objects of its own only, one of each. An object it closes is in
the map until it erases it. -/
structure LoopInv (threadnum : ℕ) (connections : OrderedMap Fd Conn) (live : Conn → Prop)
    (loop : ℕ) (io : IoLoop) : Prop where
  own : ∀ conn ∈ io.reported, loopOf threadnum conn = loop ∧ live conn
  apart : io.reported.Nodup
  stored : ∀ conn, io.phase = .entered conn ∨ io.phase = .erasing conn →
    connections.get? conn.1 = some conn
  erased : ∀ conn, io.phase = .deleting conn → connections.get? conn.1 ≠ some conn

/-- What holds in every state of a run of exclusive steps. -/
structure Inv (threadnum : ℕ) (state : State) : Prop where
  once : ∀ conn, state.deleted conn ≤ 1
  unbuilt : ∀ conn : Conn, state.opened conn.1 ≤ conn.2 → state.deleted conn = 0
  mapped : ∀ fd conn, state.connections.get? fd = some conn → conn.1 = fd ∧ state.Live conn
  stored : ∀ conn, state.Live conn → state.connections.get? conn.1 = some conn ∨
    state.main.outside? = some conn ∨ (state.loops (loopOf threadnum conn)).phase = .deleting conn
  outside : ∀ conn, state.main.outside? = some conn → Outside threadnum state conn
  iterator : ∀ it, state.main.iterator? = some it → (state.connections.get? it).isSome = true
  clearing : ∀ it conn count, state.main = .clearing it conn count →
    state.connections.get? it = some conn ∧ Cleared count (state.objects conn)
  loops : ∀ loop,
    LoopInv threadnum state.connections state.Live loop (state.loops loop)

/-- Clearing one more callback. -/
theorem Cleared.succ {count : ℕ} {connection : Connection} (hcleared : Cleared count connection) :
    Cleared (count + 1) (setcallback count false connection) := by
  obtain ⟨hclose, herror⟩ := hcleared
  match count with
  | 0 => exact ⟨fun _ ↦ rfl, fun h ↦ by omega⟩
  | 1 => exact ⟨fun _ ↦ hclose (by omega), fun _ ↦ rfl⟩
  | 2 => exact ⟨fun _ ↦ hclose (by omega), fun _ ↦ herror (by omega)⟩
  | count + 3 => exact ⟨fun _ ↦ hclose (by omega), fun _ ↦ herror (by omega)⟩

/-- Clearing a callback sets none. -/
theorem setcallback_false (count : ℕ) {connection : Connection} {failed : Bool}
    (hnull : connection.callbackSet failed = false) :
    (setcallback count false connection).callbackSet failed = false := by
  match count, failed with
  | 0, false | 1, true => rfl
  | 0, true | 1, false | 2, _ | _ + 3, _ => exact hnull

/-- When all four callbacks are cleared a close does nothing. -/
theorem Cleared.silent {count : ℕ} {connection : Connection} (hcleared : Cleared count connection)
    (hcount : 4 ≤ count) (failed : Bool) : connection.callbackSet failed = false := by
  cases failed
  · exact hcleared.1 (by omega)
  · exact hcleared.2 (by omega)

/-- The live objects after a `delete`. -/
theorem live_delete {state : State} {deleted conn : Conn} :
    (state.delete deleted).Live conn ↔ state.Live conn ∧ conn ≠ deleted := by
  simp only [State.Live, State.delete, Function.update_apply]
  split_ifs with hsame
  · simp [hsame]
  · simp [hsame]

/-- The live objects after a constructor. -/
theorem live_accept {state : State} {fd : Fd} {conn : Conn} :
    (conn.2 < Function.update state.opened fd (state.opened fd + 1) conn.1 ∧
      state.deleted conn = 0) ↔
      state.Live conn ∨ conn = (fd, state.opened fd) ∧ state.deleted conn = 0 := by
  obtain ⟨key, index⟩ := conn
  simp only [State.Live, Function.update_apply, Prod.mk.injEq]
  split_ifs with hkey
  · subst hkey
    simp only [Nat.lt_succ_iff_lt_or_eq, true_and, or_and_right]
  · simp [hkey]

section Steps

variable {threadnum : ℕ} {timeout : ℤ} {state next : State}

/-- A connection that timed out or not: the main thread goes on without touching anything. -/
theorem Inv.goto (hinv : Inv threadnum state) {main : MainPhase} (now : ℤ)
    (hfrom : state.main.outside? = none) (hto : main.outside? = none)
    (hiterator : ∀ it, main.iterator? = some it → (state.connections.get? it).isSome = true)
    (hclearing : ∀ it conn count, main = .clearing it conn count →
      state.connections.get? it = some conn ∧ Cleared count (state.objects conn)) :
    Inv threadnum { state with main, now } where
  once := hinv.once
  unbuilt := hinv.unbuilt
  mapped := hinv.mapped
  stored := by
    intro conn hlive
    rcases hinv.stored conn hlive with hmap | hout | hloop
    · exact .inl hmap
    · rw [hfrom] at hout
      cases hout
    · exact .inr (.inr hloop)
  outside := by
    intro conn hout
    rw [hto] at hout
    cases hout
  iterator := hiterator
  clearing := hclearing
  loops := hinv.loops

/-- An assignment to an object that sets no callback. -/
theorem Inv.assign (hinv : Inv threadnum state) (conn : Conn) {connection : Connection}
    (hcallbacks : ∀ failed, (state.objects conn).callbackSet failed = false →
      connection.callbackSet failed = false) : Inv threadnum (state.assign conn connection) := by
  have hsilent : ∀ other failed, (state.objects other).callbackSet failed = false →
      ((state.assign conn connection).objects other).callbackSet failed = false := by
    intro other failed hother
    by_cases hsame : other = conn
    · subst hsame
      simpa only [State.assign, Function.update_self] using hcallbacks failed hother
    · simpa only [State.assign, Function.update_of_ne hsame] using hother
  refine { hinv with outside := fun other hout ↦ ?_, clearing := fun it other count hmain ↦ ?_ }
  · obtain ⟨hlive, hnone, habsent, hnotPassed⟩ := hinv.outside other hout
    exact ⟨hlive, fun failed ↦ hsilent other failed (hnone failed), habsent, hnotPassed⟩
  · obtain ⟨hmap, hclose, herror⟩ := hinv.clearing it other count hmain
    exact ⟨hmap, fun h ↦ hsilent other _ (hclose h), fun h ↦ hsilent other _ (herror h)⟩

theorem State.loops_setLoop_self (state : State) (loop : ℕ) (io : IoLoop) :
    (state.setLoop loop io).loops loop = io := Function.update_self _ _ _

theorem State.loops_setLoop_of_ne (state : State) {loop other : ℕ} (hne : other ≠ loop)
    (io : IoLoop) : (state.setLoop loop io).loops other = state.loops other :=
  Function.update_of_ne hne _ _

/-- A loop that is not deleting an object goes on without touching the map. -/
theorem Inv.setLoop (hinv : Inv threadnum state) {loop : ℕ} {io : IoLoop}
    (hfrom : ∀ conn, (state.loops loop).phase ≠ .deleting conn)
    (hto : LoopInv threadnum state.connections state.Live loop io)
    (houtside : ∀ conn, state.main.outside? = some conn → io.phase.passed? ≠ some conn) :
    Inv threadnum (state.setLoop loop io) := by
  refine { hinv with stored := fun conn hlive ↦ ?_, outside := fun conn hout ↦ ?_,
                     loops := fun other ↦ ?_ }
  · rcases hinv.stored conn hlive with hmap | hout | hdeleting
    · exact .inl hmap
    · exact .inr (.inl hout)
    · have hne : loopOf threadnum conn ≠ loop := fun heq ↦ hfrom conn (heq ▸ hdeleting)
      refine .inr (.inr ?_)
      rw [State.loops_setLoop_of_ne _ hne]
      exact hdeleting
  · obtain ⟨hlive, hsilent, habsent, hnotPassed⟩ := hinv.outside conn hout
    refine ⟨hlive, hsilent, habsent, ?_⟩
    by_cases hsame : loopOf threadnum conn = loop
    · rw [hsame, State.loops_setLoop_self]
      exact houtside conn hout
    · rw [State.loops_setLoop_of_ne _ hsame]
      exact hnotPassed
  · by_cases hsame : other = loop
    · subst hsame
      rw [State.loops_setLoop_self]
      exact hto
    · rw [State.loops_setLoop_of_ne _ hsame]
      exact hinv.loops other

/-- Two objects in the map have different keys. -/
theorem key_ne {connections : OrderedMap Fd Conn} {conn other : Conn}
    (hconn : connections.get? conn.1 = some conn) (hother : connections.get? other.1 ≠ some conn) :
    other.1 ≠ conn.1 := fun heq ↦ hother (heq ▸ hconn)

/-- Erasing an object from the map keeps what holds of a loop that is not past the test of its
callback. -/
theorem LoopInv.erase {connections : OrderedMap Fd Conn} {live : Conn → Prop} {loop : ℕ}
    {io : IoLoop} (hloop : LoopInv threadnum connections live loop io) {conn : Conn}
    (hconn : connections.get? conn.1 = some conn) (hapart : io.phase.passed? ≠ some conn) :
    LoopInv threadnum (connections.erase conn.1) live loop io := by
  refine ⟨hloop.own, hloop.apart, fun found hfound ↦ ?_, fun found hfound hgone ↦ ?_⟩
  · have hstored := hloop.stored found hfound
    have hpassed : io.phase.passed? = some found := by rcases hfound with h | h <;> rw [h] <;> rfl
    have hne : found.1 ≠ conn.1 := by
      refine key_ne hconn fun h ↦ hapart ?_
      rw [hpassed, Option.some.inj (hstored.symm.trans h)]
    rwa [OrderedMap.get?_erase_of_ne _ hne]
  · by_cases hkey : found.1 = conn.1
    · rw [hkey, OrderedMap.get?_erase_self] at hgone
      cases hgone
    · rw [OrderedMap.get?_erase_of_ne _ hkey] at hgone
      exact hloop.erased found hfound hgone

/-- The map has only live objects, also after an `erase`. -/
theorem Inv.mapped_erase (hinv : Inv threadnum state) {key fd : Fd} {conn : Conn}
    (hmap : (state.connections.erase key).get? fd = some conn) : conn.1 = fd ∧ state.Live conn := by
  rw [OrderedMap.get?_erase] at hmap
  split_ifs at hmap
  exact hinv.mapped fd conn hmap

/-- An object that is live and not the one erased is where it was. -/
theorem Inv.stored_erase (hinv : Inv threadnum state) {conn other : Conn}
    (hconn : state.connections.get? conn.1 = some conn) (hne : other ≠ conn)
    (hlive : state.Live other) :
    (state.connections.erase conn.1).get? other.1 = some other ∨
      state.main.outside? = some other ∨
      (state.loops (loopOf threadnum other)).phase = .deleting other := by
  refine (hinv.stored other hlive).imp_left fun hother ↦ ?_
  have hkey : other.1 ≠ conn.1 := key_ne hconn fun h ↦
    hne (Option.some.inj (hother.symm.trans h))
  rwa [OrderedMap.get?_erase_of_ne _ hkey]

/-- A loop goes on with the handler it is in, or returns from it. -/
theorem LoopInv.turn {connections changed : OrderedMap Fd Conn} {live : Conn → Prop} {loop : ℕ}
    {io : IoLoop} {phase : LoopPhase} (hloop : LoopInv threadnum connections live loop io)
    (hcurrent : phase.conn? = io.phase.conn? ∨ phase.conn? = none)
    (hstored : ∀ conn, phase = .entered conn ∨ phase = .erasing conn →
      changed.get? conn.1 = some conn)
    (herased : ∀ conn, phase = .deleting conn → changed.get? conn.1 ≠ some conn) :
    LoopInv threadnum changed live loop { io with phase } := by
  have hfewer : (IoLoop.mk phase io.batch).reported.Sublist io.reported := by
    rw [IoLoop.reported, IoLoop.reported]
    rcases hcurrent with h | h <;> rw [h]
    exact List.sublist_append_right _ _
  exact ⟨fun conn hconn ↦ hloop.own conn (hfewer.subset hconn), hloop.apart.sublist hfewer,
    hstored, herased⟩

/-- A sub-loop erases an object that the iterator of the timer is not at. -/
theorem Inv.erase (hinv : Inv threadnum state) {loop : ℕ} {conn : Conn}
    (hphase : (state.loops loop).phase = .erasing conn)
    (hapart : state.main.iterator? ≠ some conn.1) :
    Inv threadnum ({ state with connections := state.connections.erase conn.1 }.setPhase loop
      (.deleting conn)) := by
  have hconn : state.connections.get? conn.1 = some conn :=
    (hinv.loops loop).stored conn (.inr hphase)
  have hcurrent : (state.loops loop).phase.conn? = some conn := by rw [hphase]; rfl
  obtain ⟨hloop, hlive⟩ := (hinv.loops loop).own conn (IoLoop.mem_reported hcurrent)
  have hiterator : ∀ it, state.main.iterator? = some it →
      (state.connections.erase conn.1).get? it = state.connections.get? it :=
    fun it hit ↦ OrderedMap.get?_erase_of_ne _ fun heq ↦ hapart (heq ▸ hit)
  refine { hinv with mapped := fun fd other hother ↦ hinv.mapped_erase hother,
                     stored := fun other hother ↦ ?_, outside := fun other hout ↦ ?_,
                     iterator := fun it hit ↦ ?_, clearing := fun it other count hmain ↦ ?_,
                     loops := fun other ↦ ?_ }
  · by_cases hsame : other = conn
    · subst hsame
      refine .inr (.inr ?_)
      rw [hloop, State.setPhase, State.loops_setLoop_self]
    · rcases hinv.stored_erase hconn hsame hother with hstored | hout | hdeleting
      · exact .inl hstored
      · exact .inr (.inl hout)
      · have hne : loopOf threadnum other ≠ loop := by
          intro heq
          rw [heq, hphase] at hdeleting
          cases hdeleting
        refine .inr (.inr ?_)
        rw [State.setPhase, State.loops_setLoop_of_ne _ hne]
        exact hdeleting
  · obtain ⟨houtLive, hsilent, habsent, hnotPassed⟩ := hinv.outside other hout
    have hkey : other.1 ≠ conn.1 := key_ne hconn fun h ↦ by
      rw [habsent] at h
      cases h
    refine ⟨houtLive, hsilent, (OrderedMap.get?_erase_of_ne _ hkey).trans habsent, ?_⟩
    by_cases hsame : loopOf threadnum other = loop
    · rw [hsame, State.setPhase, State.loops_setLoop_self]
      exact fun heq ↦ hkey (congrArg Prod.fst (Option.some.inj heq)).symm
    · rw [State.setPhase, State.loops_setLoop_of_ne _ hsame]
      exact hnotPassed
  · exact (congrArg Option.isSome (hiterator it hit)).trans (hinv.iterator it hit)
  · obtain ⟨hstored, hcleared⟩ := hinv.clearing it other count hmain
    have hit : state.main.iterator? = some it := by
      rw [show state.main = .clearing it other count from hmain]
      rfl
    exact ⟨(hiterator it hit).trans hstored, hcleared⟩
  · by_cases hsame : other = loop
    · subst hsame
      rw [State.setPhase, State.loops_setLoop_self]
      refine (hinv.loops other).turn (.inl hcurrent.symm) (fun found hfound ↦ ?_)
        fun found hfound hgone ↦ ?_
      · rcases hfound with h | h <;> cases h
      · cases hfound
        exact Option.some_ne_none _ (hgone.symm.trans (OrderedMap.get?_erase_self _ _))
    · rw [State.setPhase, State.loops_setLoop_of_ne _ hsame]
      refine (hinv.loops other).erase hconn fun hpassed ↦ hsame ?_
      have hreported := IoLoop.mem_reported (LoopPhase.conn?_of_passed? hpassed)
      exact ((hinv.loops other).own conn hreported).1.symm.trans hloop

/-- Deleting an object, or building one, keeps what holds of a loop that has no report of it. -/
theorem LoopInv.mono {connections : OrderedMap Fd Conn} {live liveNext : Conn → Prop} {loop : ℕ}
    {io : IoLoop} (hloop : LoopInv threadnum connections live loop io)
    (hlive : ∀ conn ∈ io.reported, live conn → liveNext conn) :
    LoopInv threadnum connections liveNext loop io :=
  { hloop with own := fun conn hconn ↦ (hloop.own conn hconn).imp_right (hlive conn hconn) }

/-- What a `delete` of a live object that is not in the map keeps. -/
theorem Inv.delete (hinv : Inv threadnum state) {conn : Conn} (hlive : state.Live conn)
    (hgone : state.connections.get? conn.1 ≠ some conn) :
    (∀ other, (state.delete conn).deleted other ≤ 1) ∧
      (∀ other : Conn, state.opened other.1 ≤ other.2 → (state.delete conn).deleted other = 0) ∧
      ∀ fd other, state.connections.get? fd = some other →
        other.1 = fd ∧ (state.delete conn).Live other := by
  refine ⟨fun other ↦ ?_, fun other hother ↦ ?_, fun fd other hother ↦ ?_⟩
  · by_cases hsame : other = conn
    · subst hsame
      simp [State.delete, hlive.2]
    · simpa [State.delete, Function.update_of_ne hsame] using hinv.once other
  · have hsame : other ≠ conn := by
      rintro rfl
      exact absurd hlive.1 (by omega)
    simpa [State.delete, Function.update_of_ne hsame] using hinv.unbuilt other hother
  · obtain ⟨hkey, hotherLive⟩ := hinv.mapped fd other hother
    refine ⟨hkey, live_delete.mpr ⟨hotherLive, ?_⟩⟩
    rintro rfl
    exact hgone (hkey ▸ hother)

/-- A sub-loop deletes the object it has erased. -/
theorem Inv.loopDelete (hinv : Inv threadnum state) {loop : ℕ} {conn : Conn}
    (hphase : (state.loops loop).phase = .deleting conn) :
    Inv threadnum ((state.delete conn).setPhase loop .idle) := by
  have hcurrent : (state.loops loop).phase.conn? = some conn := by rw [hphase]; rfl
  obtain ⟨hloop, hlive⟩ := (hinv.loops loop).own conn (IoLoop.mem_reported hcurrent)
  obtain ⟨honce, hunbuilt, hmapped⟩ := hinv.delete hlive ((hinv.loops loop).erased conn hphase)
  refine { once := honce, unbuilt := hunbuilt, mapped := hmapped, stored := fun other hother ↦ ?_,
           outside := fun other hout ↦ ?_, iterator := hinv.iterator, clearing := hinv.clearing,
           loops := fun other ↦ ?_ }
  · have hkept : (state.delete conn).Live other := hother
    obtain ⟨hotherLive, hne⟩ := live_delete.mp hkept
    refine (hinv.stored other hotherLive).imp_right (Or.imp_right fun hdeleting ↦ ?_)
    have hapart : loopOf threadnum other ≠ loop := by
      intro heq
      rw [heq, hphase] at hdeleting
      cases hdeleting
      exact hne rfl
    rw [State.setPhase, State.loops_setLoop_of_ne _ hapart]
    exact hdeleting
  · obtain ⟨houtLive, hsilent, habsent, hnotPassed⟩ := hinv.outside other hout
    have hne : other ≠ conn := by
      rintro rfl
      rw [hloop, hphase] at hnotPassed
      exact hnotPassed rfl
    refine ⟨live_delete.mpr ⟨houtLive, hne⟩, hsilent, habsent, ?_⟩
    by_cases hsame : loopOf threadnum other = loop
    · rw [hsame, State.setPhase, State.loops_setLoop_self]
      exact fun h ↦ by cases h
    · rw [State.setPhase, State.loops_setLoop_of_ne _ hsame]
      exact hnotPassed
  · by_cases hsame : other = loop
    · subst hsame
      rw [State.setPhase, State.loops_setLoop_self]
      have hturned : LoopInv threadnum state.connections state.Live other
          { state.loops other with phase := .idle } :=
        (hinv.loops other).turn (.inr rfl) (fun _ h ↦ h.elim nofun nofun) nofun
      -- the batch has no second report of the object that is deleted
      have hbatch : conn ∉ (state.loops other).batch := by
        have hapart := (hinv.loops other).apart
        rw [IoLoop.reported, hcurrent] at hapart
        exact (List.nodup_cons.mp hapart).1
      refine hturned.mono fun found hfound hfoundLive ↦ live_delete.mpr ⟨hfoundLive, ?_⟩
      rintro rfl
      exact hbatch hfound
    · rw [State.setPhase, State.loops_setLoop_of_ne _ hsame]
      refine (hinv.loops other).mono fun found hfound hfoundLive ↦ ?_
      refine live_delete.mpr ⟨hfoundLive, ?_⟩
      rintro rfl
      exact hsame (((hinv.loops other).own found hfound).1.symm.trans hloop)

/-- The timer deletes an object that its loop has no report of. -/
theorem Inv.timerDelete (hinv : Inv threadnum state) {conn : Conn} {it : Option Fd}
    (hmain : state.main = .deleting conn it)
    (hapart : conn ∉ (state.loops (loopOf threadnum conn)).reported) :
    Inv threadnum { state.delete conn with main := .testing it } := by
  obtain ⟨hlive, -, habsent, -⟩ := hinv.outside conn (by rw [hmain]; rfl)
  have hgone : state.connections.get? conn.1 ≠ some conn := by
    rw [habsent]
    exact (Option.some_ne_none conn).symm
  obtain ⟨honce, hunbuilt, hmapped⟩ := hinv.delete hlive hgone
  refine { once := honce, unbuilt := hunbuilt, mapped := hmapped, stored := fun other hother ↦ ?_,
           outside := nofun, iterator := fun next hnext ↦ ?_,
           clearing := nofun, loops := fun loop ↦ ?_ }
  · have hkept : (state.delete conn).Live other := hother
    obtain ⟨hotherLive, hne⟩ := live_delete.mp hkept
    rcases hinv.stored other hotherLive with hmap | hout | hdeleting
    · exact .inl hmap
    · rw [hmain] at hout
      cases hout
      exact absurd rfl hne
    · exact .inr (.inr hdeleting)
  · exact hinv.iterator next (by rw [hmain]; exact hnext)
  · refine (hinv.loops loop).mono fun found hfound hfoundLive ↦ live_delete.mpr ⟨hfoundLive, ?_⟩
    rintro rfl
    rw [((hinv.loops loop).own found hfound).1] at hapart
    exact hapart hfound

/-- The timer erases an object of which no close is past the test of its callback. -/
theorem Inv.timerErase (hinv : Inv threadnum state) {it : Fd} {conn : Conn} {count : ℕ}
    (hmain : state.main = .clearing it conn count) (hcount : 4 ≤ count)
    (hapart : (state.loops (loopOf threadnum conn)).phase.passed? ≠ some conn) :
    Inv threadnum { state with
      connections := state.connections.erase it
      main := .deleting conn (state.connections.next? it) } := by
  obtain ⟨hconn, hcleared⟩ := hinv.clearing it conn count hmain
  obtain ⟨rfl, hlive⟩ := hinv.mapped it conn hconn
  refine { hinv with mapped := fun fd other hother ↦ hinv.mapped_erase hother,
                     stored := fun other hother ↦ ?_, outside := fun other hout ↦ ?_,
                     iterator := fun next hnext ↦ ?_, clearing := nofun,
                     loops := fun loop ↦ ?_ }
  · by_cases hsame : other = conn
    · exact .inr (.inl (congrArg some hsame.symm))
    · rcases hinv.stored_erase hconn hsame hother with hstored | hout | hdeleting
      · exact .inl hstored
      · rw [hmain] at hout
        cases hout
      · exact .inr (.inr hdeleting)
  · cases hout
    exact ⟨hlive, hcleared.silent hcount, OrderedMap.get?_erase_self _ _, hapart⟩
  · have hne : next ≠ conn.1 := (OrderedMap.lt_of_next? _ hnext).ne'
    exact (congrArg Option.isSome (OrderedMap.get?_erase_of_ne _ hne)).trans
      (OrderedMap.isSome_of_next? _ hnext)
  · refine (hinv.loops loop).erase hconn fun hpassed ↦ hapart ?_
    have hreported := IoLoop.mem_reported (LoopPhase.conn?_of_passed? hpassed)
    rw [((hinv.loops loop).own conn hreported).1]
    exact hpassed

/-- The constructor builds an object on a descriptor that was not open. -/
theorem Inv.accept (hinv : Inv threadnum state) {fd : Fd} (this : ℕ) (now : ℤ)
    (hidle : state.main = .idle)
    (hclosed : ∀ earlier, earlier < state.opened fd → ¬ state.Live (fd, earlier)) :
    Inv threadnum { state.assign (fd, state.opened fd) (.constructed this fd now) with
      opened := Function.update state.opened fd (state.opened fd + 1)
      main := .inserting (fd, state.opened fd) } := by
  have hnew : state.deleted (fd, state.opened fd) = 0 := hinv.unbuilt _ le_rfl
  have hfree : state.connections.get? fd = none := by
    cases hentry : state.connections.get? fd with
    | none => rfl
    | some conn =>
      obtain ⟨rfl, hlive⟩ := hinv.mapped fd conn hentry
      exact absurd hlive (hclosed conn.2 hlive.1)
  refine { once := hinv.once, unbuilt := fun conn hconn ↦ hinv.unbuilt conn ?_,
           mapped := fun key conn hconn ↦ ?_, stored := fun conn hconn ↦ ?_,
           outside := fun conn hout ↦ ?_, iterator := nofun, clearing := nofun,
           loops := fun loop ↦ ?_ }
  · simp only [Function.update_apply] at hconn
    split_ifs at hconn with hkey
    · rw [hkey]
      exact (Nat.le_succ _).trans hconn
    · exact hconn
  · exact (hinv.mapped key conn hconn).imp_right fun hlive ↦ live_accept.mpr (.inl hlive)
  · rcases live_accept.mp hconn with hlive | ⟨rfl, -⟩
    · rcases hinv.stored conn hlive with hmap | hout | hdeleting
      · exact .inl hmap
      · rw [hidle] at hout
        cases hout
      · exact .inr (.inr hdeleting)
    · exact .inr (.inl rfl)
  · cases hout
    refine ⟨live_accept.mpr (.inr ⟨rfl, hnew⟩), fun failed ↦ ?_, hfree, fun hpassed ↦ ?_⟩
    · simp only [State.assign, Function.update_self]
      cases failed <;> rfl
    · have hreported := IoLoop.mem_reported (LoopPhase.conn?_of_passed? hpassed)
      have hlive := ((hinv.loops _).own _ hreported).2
      exact absurd hlive.1 (lt_irrefl _)
  · exact (hinv.loops loop).mono fun conn _ hlive ↦ live_accept.mpr (.inl hlive)

/-- The object is inserted. -/
theorem Inv.insert (hinv : Inv threadnum state) {conn : Conn}
    (hmain : state.main = .inserting conn) :
    Inv threadnum { state with
      connections := state.connections.insert conn.1 conn, main := .setting conn 0 } := by
  obtain ⟨hlive, -, habsent, hnotPassed⟩ := hinv.outside conn (by rw [hmain]; rfl)
  have hkept : ∀ other : Conn, state.connections.get? other.1 = some other →
      (state.connections.insert conn.1 conn).get? other.1 = some other := by
    intro other hother
    have hkey : other.1 ≠ conn.1 := fun heq ↦ by
      rw [heq, habsent] at hother
      cases hother
    rwa [OrderedMap.get?_insert_of_ne _ hkey]
  refine { once := hinv.once, unbuilt := hinv.unbuilt, mapped := fun fd other hother ↦ ?_,
           stored := fun other hother ↦ ?_, outside := nofun, iterator := nofun, clearing := nofun,
           loops := fun loop ↦ { hinv.loops loop with
             stored := fun other hother ↦ ?_, erased := fun other hother hmap ↦ ?_ } }
  · rw [OrderedMap.get?_insert] at hother
    split_ifs at hother with hkey
    · cases hother
      exact ⟨hkey.symm, hlive⟩
    · exact hinv.mapped fd other hother
  · rcases hinv.stored other hother with hmap | hout | hdeleting
    · exact .inl (hkept other hmap)
    · rw [hmain] at hout
      cases hout
      exact .inl (OrderedMap.get?_insert_self _ _ _)
    · exact .inr (.inr hdeleting)
  · exact hkept other ((hinv.loops loop).stored other hother)
  · rw [OrderedMap.get?_insert] at hmap
    split_ifs at hmap with hkey
    · cases hmap
      have hcurrent : (state.loops loop).phase.conn? = some conn := by rw [hother]; rfl
      have hown := ((hinv.loops loop).own conn (IoLoop.mem_reported hcurrent)).1
      exact hnotPassed (by rw [hown, hother]; rfl)
    · exact (hinv.loops loop).erased other hother hmap

/-- A step of `newconnection` keeps the invariant. -/
theorem Inv.newconnection (hinv : Inv threadnum state) (hstep : newconnection state = some next) :
    Inv threadnum next := by
  rw [Eviction.newconnection] at hstep
  split at hstep
  · rename_i conn hmain
    cases hstep
    exact hinv.insert hmain
  · rename_i conn count hmain
    have houtside : state.main.outside? = none := by rw [hmain]; rfl
    split_ifs at hstep
    · cases hstep
      have hset : Inv threadnum { state with main := .setting conn (count + 1) } :=
        hinv.goto state.now houtside rfl nofun nofun
      exact { hset with outside := nofun, clearing := nofun }
    · cases hstep
      exact hinv.goto state.now houtside rfl nofun nofun
  · cases hstep

/-- An exclusive step of `handle_timer` keeps the invariant. -/
theorem Inv.handleTimer (hinv : Inv threadnum state)
    (hexclusive : Exclusive threadnum state .handleTimer)
    (hstep : handleTimer timeout state = some next) : Inv threadnum next := by
  rw [Eviction.handleTimer] at hstep
  split at hstep
  · rename_i hmain
    cases hstep
    exact hinv.goto state.now (by rw [hmain]; rfl) rfl nofun nofun
  · rename_i it hmain
    split at hstep
    · cases hstep
    · rename_i conn hconn
      cases hstep
      have hsome : (state.connections.get? it).isSome = true := by rw [hconn]; rfl
      split_ifs
      · exact hinv.goto state.now (by rw [hmain]; rfl) rfl (fun _ h ↦ by cases h; exact hsome) nofun
      · exact hinv.goto state.now (by rw [hmain]; rfl) rfl (fun _ h ↦ by cases h; exact hsome) nofun
  · rename_i it hmain
    split at hstep
    · cases hstep
    · cases hstep
      exact hinv.goto state.now (by rw [hmain]; rfl) rfl
        (fun _ h ↦ OrderedMap.isSome_of_next? _ h) nofun
  · rename_i it hmain
    split at hstep
    · cases hstep
    · rename_i conn hconn
      cases hstep
      have hsome : (state.connections.get? it).isSome = true := by rw [hconn]; rfl
      refine hinv.goto state.now (by rw [hmain]; rfl) rfl (fun _ h ↦ by cases h; exact hsome) ?_
      intro found other count h
      cases h
      exact ⟨hconn, nofun, nofun⟩
  · rename_i it conn count hmain
    obtain ⟨hconn, hcleared⟩ := hinv.clearing it conn count hmain
    split_ifs at hstep with hcount
    · cases hstep
      have hassign := hinv.assign conn fun failed h ↦ setcallback_false count h
      refine hassign.goto state.now ?_ rfl (fun _ h ↦ ?_) ?_
      · exact congrArg MainPhase.outside? hmain
      · cases h
        exact congrArg Option.isSome hconn
      · intro found other made h
        cases h
        refine ⟨hconn, ?_⟩
        simpa only [State.assign, Function.update_self] using hcleared.succ
    · split at hstep
      · cases hstep
      · cases hstep
        have hfull : 4 ≤ count := by omega
        refine hinv.timerErase hmain hfull (hexclusive.1 conn ?_)
        rw [hmain, MainPhase.erasing?, if_pos hfull]
        rfl
  · rename_i conn it hmain
    cases hstep
    exact hinv.timerDelete hmain (hexclusive.2 conn (by rw [hmain]; rfl))
  · cases hstep

/-- A loop goes on with the handler it is in, not past the test of a callback, or returns. -/
theorem Inv.goOn (hinv : Inv threadnum state) {loop : ℕ} {phase : LoopPhase}
    (hfrom : ∀ conn, (state.loops loop).phase ≠ .deleting conn)
    (hcurrent : phase.conn? = (state.loops loop).phase.conn? ∨ phase.conn? = none)
    (hpassed : phase.passed? = none) : Inv threadnum (state.setPhase loop phase) := by
  refine hinv.setLoop hfrom ((hinv.loops loop).turn hcurrent ?_ ?_) fun _ _ h ↦ ?_
  · rintro conn (rfl | rfl) <;> cases hpassed
  · rintro conn rfl
    cases hpassed
  · rw [hpassed] at h
    cases h

/-- A loop goes on in the callback of the server, for an object of the map. -/
theorem Inv.inside (hinv : Inv threadnum state) {loop : ℕ} {conn : Conn} {phase : LoopPhase}
    (hfrom : ∀ other, (state.loops loop).phase ≠ .deleting other)
    (hcurrent : (state.loops loop).phase.conn? = some conn)
    (hconn : state.connections.get? conn.1 = some conn) (hinside : state.main.outside? ≠ some conn)
    (hphase : phase = .entered conn ∨ phase = .erasing conn) :
    Inv threadnum (state.setPhase loop phase) := by
  have hsame : phase.conn? = some conn ∧ phase.passed? = some conn := by
    rcases hphase with rfl | rfl <;> exact ⟨rfl, rfl⟩
  refine hinv.setLoop hfrom ?_ fun other hout h ↦ ?_
  · refine (hinv.loops loop).turn (.inl (hsame.1.trans hcurrent.symm)) (fun found hfound ↦ ?_)
      fun found hfound ↦ ?_
    · have hfoundConn : phase.conn? = some found := by rcases hfound with rfl | rfl <;> rfl
      cases hsame.1.symm.trans hfoundConn
      exact hconn
    · subst hfound
      exact hphase.elim nofun nofun
  · cases hsame.2.symm.trans h
    exact hinside hout

/-- A close begins. -/
theorem Inv.closeClient (hinv : Inv threadnum state) {loop : ℕ} {failed : Bool}
    (hstep : step threadnum timeout state (.closeClient loop failed) = some next) :
    Inv threadnum next := by
  rw [Eviction.step] at hstep
  split at hstep
  · rename_i conn hphase
    cases hstep
    have hassign : Inv threadnum (state.assign conn (if failed
        then (state.objects conn).errorClient.1 else (state.objects conn).closeClient.1)) := by
      refine hinv.assign conn fun tested h ↦ ?_
      cases failed <;> exact h
    refine hassign.goOn (fun other h ↦ ?_) (.inl ?_) rfl
    · cases hphase.symm.trans h
    · exact (congrArg LoopPhase.conn? hphase).symm
  · cases hstep

/-- A close goes on when its callback is set, which it is for an object of the map only. -/
theorem Inv.callback (hinv : Inv threadnum state) {loop : ℕ} {freed : Bool}
    (hstep : step threadnum timeout state (.callback loop freed) = some next) :
    Inv threadnum next := by
  rw [Eviction.step] at hstep
  split at hstep
  · rename_i conn failed hphase
    cases hstep
    have hcurrent : (state.loops loop).phase.conn? = some conn := by rw [hphase]; rfl
    have hown := (hinv.loops loop).own conn (IoLoop.mem_reported hcurrent)
    have hfrom : ∀ other, (state.loops loop).phase ≠ .deleting other := by
      intro other h
      rw [hphase] at h
      cases h
    rw [if_pos hown.2]
    split_ifs with hset
    · have hinside : state.main.outside? ≠ some conn := by
        intro hout
        rw [(hinv.outside conn hout).silent failed] at hset
        cases hset
      have hconn : state.connections.get? conn.1 = some conn := by
        rcases hinv.stored conn hown.2 with hmap | hout | hdeleting
        · exact hmap
        · exact absurd hout hinside
        · rw [hown.1] at hdeleting
          exact absurd hdeleting (hfrom conn)
      exact hinv.inside hfrom hcurrent hconn hinside (.inl rfl)
    · exact hinv.goOn hfrom (.inr rfl) rfl
  · cases hstep

/-- The callback of the server returns. -/
theorem Inv.closeconnection (hinv : Inv threadnum state) {loop : ℕ}
    (hstep : step threadnum timeout state (.closeconnection loop) = some next) :
    Inv threadnum next := by
  rw [Eviction.step] at hstep
  split at hstep
  · rename_i conn hphase
    cases hstep
    have hcurrent : (state.loops loop).phase.conn? = some conn := by rw [hphase]; rfl
    have hown := (hinv.loops loop).own conn (IoLoop.mem_reported hcurrent)
    have hconn := (hinv.loops loop).stored conn (.inl hphase)
    refine hinv.inside (fun other h ↦ ?_) hcurrent hconn (fun hout ↦ ?_) (.inr rfl)
    · rw [hphase] at h
      cases h
    · refine (hinv.outside conn hout).notPassed ?_
      rw [hown.1, hphase]
      rfl
  · cases hstep

/-- The kernel reports live objects to their loop. -/
theorem Inv.epollWait (hinv : Inv threadnum state) {loop : ℕ} {reported : List Conn}
    (hstep : step threadnum timeout state (.epollWait loop reported) = some next) :
    Inv threadnum next := by
  rw [Eviction.step, Option.ite_none_right_eq_some] at hstep
  obtain ⟨⟨hidle, -, hnodup, hown⟩, hnext⟩ := hstep
  cases hnext
  refine hinv.setLoop (fun conn h ↦ ?_) ⟨hown, hnodup, fun _ h ↦ h.elim nofun nofun, nofun⟩
    fun _ _ ↦ nofun
  rw [hidle] at h
  cases h

/-- A loop takes up the report in front of its batch. -/
theorem Inv.handleevent (hinv : Inv threadnum state) {loop : ℕ}
    (hstep : step threadnum timeout state (.handleevent loop) = some next) :
    Inv threadnum next := by
  rw [Eviction.step] at hstep
  split at hstep
  · rename_i conn rest hloop
    cases hstep
    have hbefore := hinv.loops loop
    rw [hloop] at hbefore
    refine hinv.setLoop (fun other h ↦ ?_)
      ⟨hbefore.own, hbefore.apart, fun _ h ↦ h.elim nofun nofun, nofun⟩ fun _ _ ↦ nofun
    rw [hloop] at h
    cases h
  · cases hstep

/-- An exclusive step keeps the invariant. -/
theorem Inv.step (hinv : Inv threadnum state) {label : Label}
    (hexclusive : Exclusive threadnum state label)
    (hstep : step threadnum timeout state label = some next) : Inv threadnum next := by
  cases label with
  | accept fd this now =>
    rw [Eviction.step, Option.ite_none_right_eq_some] at hstep
    obtain ⟨⟨hidle, hclosed⟩, hnext⟩ := hstep
    cases hnext
    exact hinv.accept this now hidle hclosed
  | newconnection => exact hinv.newconnection hstep
  | timerfd now =>
    rw [Eviction.step, Option.ite_none_right_eq_some] at hstep
    obtain ⟨hidle, hnext⟩ := hstep
    cases hnext
    exact hinv.goto now (by rw [hidle]; rfl) rfl (fun _ h ↦ OrderedMap.isSome_of_first? _ h) nofun
  | handleTimer => exact hinv.handleTimer hexclusive hstep
  | epollWait loop reported => exact hinv.epollWait hstep
  | handleevent loop => exact hinv.handleevent hstep
  | onmessage loop now =>
    rw [Eviction.step] at hstep
    split at hstep
    · cases hstep
      exact hinv.assign _ fun failed h ↦ h
    · cases hstep
  | «return» loop =>
    rw [Eviction.step] at hstep
    split at hstep
    · rename_i conn hphase
      cases hstep
      refine hinv.goOn (fun other h ↦ ?_) (.inr rfl) rfl
      cases hphase.symm.trans h
    · cases hstep
  | closeClient conn failed => exact hinv.closeClient hstep
  | callback loop freed => exact hinv.callback hstep
  | closeconnection loop => exact hinv.closeconnection hstep
  | erase loop =>
    rw [Eviction.step] at hstep
    split at hstep
    · rename_i conn hphase
      cases hstep
      exact hinv.erase hphase (hexclusive conn (by rw [hphase]; rfl))
    · cases hstep
  | delete loop =>
    rw [Eviction.step] at hstep
    split at hstep
    · rename_i conn hphase
      cases hstep
      exact hinv.loopDelete hphase
    · cases hstep

/-- The invariant holds before the first connection. -/
theorem Initial.inv (hinitial : Initial state) : Inv threadnum state where
  once := fun conn ↦ by rw [hinitial.deleted]; exact Nat.zero_le 1
  unbuilt := fun conn _ ↦ by rw [hinitial.deleted]
  mapped := fun fd conn hconn ↦ by
    rw [hinitial.connections] at hconn
    cases hconn
  stored := fun conn hlive ↦ by
    have hbuilt := hlive.1
    rw [hinitial.opened] at hbuilt
    cases hbuilt
  outside := fun conn hout ↦ by
    rw [hinitial.main] at hout
    cases hout
  iterator := fun it hit ↦ by
    rw [hinitial.main] at hit
    cases hit
  clearing := fun it conn count hmain ↦ by
    rw [hinitial.main] at hmain
    cases hmain
  loops := fun loop ↦ by
    rw [hinitial.loops]
    exact ⟨nofun, .nil, fun _ h ↦ h.elim nofun nofun, nofun⟩

/-- Under the invariant the map and the objects are as they are to be. -/
theorem Inv.exact (hinv : Inv threadnum state) : Exact state where
  once := hinv.once
  evaluates := by
    intro it hmain
    have hsome := hinv.iterator it (by rw [hmain]; rfl)
    obtain ⟨conn, hconn⟩ := Option.isSome_iff_exists.mp hsome
    exact ⟨conn, hconn, (hinv.mapped it conn hconn).2⟩
  erases := fun it conn hmain ↦ (hinv.clearing it conn 4 hmain).1
  values := by
    rintro ⟨hidle, hloops⟩ fd conn
    constructor
    · exact fun hconn ↦ (hinv.mapped fd conn hconn).symm
    · rintro ⟨hlive, rfl⟩
      rcases hinv.stored conn hlive with hmap | hout | hdeleting
      · exact hmap
      · rw [hidle] at hout
        cases hout
      · rw [hloops] at hdeleting
        cases hdeleting

/-- In a run of exclusive steps every object is deleted at most once, `handle_timer` looks only at
live objects and erases only entries of the map, and between operations the map holds the live
objects, each under its own descriptor. -/
theorem exact_of_exclusive
    (hreach : (system threadnum timeout).ReachesUnder (Exclusive threadnum) state) :
    Exact state := by
  have hinv : Inv threadnum state := hreach.invariant (Inv threadnum) (fun _ ↦ Initial.inv)
    fun _ _ _ hinv hexclusive hstep ↦ hinv.step hexclusive hstep
  exact hinv.exact

/-- The server before the first connection. -/
def start : State where
  connections := .empty
  objects := fun conn ↦ .constructed 0 conn.1 0
  opened := fun _ ↦ 0
  deleted := fun _ ↦ 0
  main := .idle
  loops := fun _ ↦ .idle
  now := 0

theorem start_initial : Initial start := ⟨rfl, rfl, rfl, rfl, rfl⟩

/-- A connection is accepted, its descriptor closed by the peer and used again, and the second
connection is evicted. -/
theorem exact_evicted :
    ∃ state, (system 2 20).ReachesUnder (Exclusive 2) state ∧ state.deleted (5, 0) = 1 ∧
      state.deleted (5, 1) = 1 ∧ Exact state := by
  have hreach : ∃ state, (system 2 20).ReachesUnder (Exclusive 2) state ∧
      state.deleted (5, 0) = 1 ∧ state.deleted (5, 1) = 1 := by
    refine ⟨_, .of_run (.initial start_initial)
      [.accept 5 1 0, .newconnection, .newconnection, .epollWait 1 [(5, 0)], .handleevent 1,
        .closeClient 1 false, .newconnection, .newconnection, .newconnection, .newconnection,
        .callback 1 false, .closeconnection 1, .erase 1, .delete 1, .accept 5 2 0, .newconnection,
        .newconnection, .newconnection, .newconnection, .newconnection, .newconnection,
        .epollWait 1 [(5, 1)], .handleevent 1, .onmessage 1 0, .return 1, .timerfd 21, .handleTimer,
        .handleTimer, .handleTimer, .handleTimer, .handleTimer, .handleTimer, .handleTimer,
        .handleTimer, .handleTimer] ?_ rfl, rfl, rfl⟩
    decide
  obtain ⟨state, hstate, hfirst, hsecond⟩ := hreach
  exact ⟨state, hstate, hfirst, hsecond, exact_of_exclusive hstate⟩

/-- A close that is past the test of its callback when the timer evicts its connection deletes it a
second time. -/
theorem not_exact_twice :
    ¬ ∀ state, (system 2 20).Reachable state → Exact state := by
  intro hexact
  have hreach : ∃ state, (system 2 20).Reachable state ∧ state.deleted (5, 0) = 2 :=
    ⟨_, .of_run (.initial start_initial)
      [.accept 5 1 0, .newconnection, .newconnection, .newconnection, .newconnection,
        .newconnection, .newconnection, .timerfd 21, .handleTimer, .handleTimer,
        .epollWait 1 [(5, 0)], .handleevent 1, .closeClient 1 false, .callback 1 false,
        .closeconnection 1, .handleTimer, .handleTimer, .handleTimer, .handleTimer, .handleTimer,
        .erase 1, .handleTimer, .delete 1] rfl, rfl⟩
  obtain ⟨state, hstate, htwice⟩ := hreach
  have honce := (hexact state hstate).once (5, 0)
  rw [htwice] at honce
  exact absurd honce (by decide)

end Steps

end Reactor.Eviction
