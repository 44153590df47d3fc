import Reactor.Eviction
import Mathlib.Data.List.Nodup

/-!
# Which connections the timer evicts

`handle_timer` walks over the map of connections and evicts those that have been idle for more than
`timeout` seconds, going by the time stamp `last_time` of each. The constructor sets the stamp, and
`onmessage` sets it for each message it dispatches. This is a model of the two together, when
openings, calls of `onmessage`, closes and ticks of the timer happen one at a time (`step`); replies
may be sent in between. `Eviction` is about their interleavings.

`history` is what the stamp is to stand for. It records the clock at each construction and at each
message dispatched, newest first, so that `lastActive` is the clock at the last of them for a
connection; no operation reads it. `Inv.stamped` is that the stamp of an object that is alive says
the same.

The loop of `handle_timer` (`walk`) erases entries of the map it walks over, by an iterator that
`erase` moves on. `walk_eq` is what it does: it examines every entry once, in order, and evicts
those that have timed out. It is a run of the statements of `Eviction` that nothing interrupts
(`exists_run_handleTimer`). `evicts_exactly` is the loop and the time stamp together, for every run:
a tick evicts exactly the connections whose last activity is more than `timeout` seconds ago.
-/

set_option autoImplicit false
set_option relaxedAutoImplicit false

namespace Reactor.IdleEviction

open Library Connection
open Lifetime (Conn loopOf)

/-- A connection was built, or had a message dispatched, at this time of the clock. -/
structure Activity where
  conn : Conn
  clock : ℤ

/-- A step of the loop of `handle_timer` that can be seen from outside: it asks an entry whether its
connection has timed out, erases the entry, or deletes the object, which is as it is then. -/
inductive Action
  | examine (it : Fd)
  | erase (it : Fd)
  | delete (conn : Conn) (connection : Connection)

structure State where
  connections : OrderedMap Fd Conn
  objects : Conn → Connection
  /-- The number of objects built on each descriptor. -/
  opened : Fd → ℕ
  /-- How often each object has been deleted. -/
  deleted : Conn → ℕ
  /-- The epoll instances of the sub-loops. -/
  eps : ℕ → Epoll
  /-- What `last_time` is to stand for, newest first. -/
  history : List Activity

inductive Label
  | newconnection (fd : Fd) (this : ℕ) (now : ℤ)
  | onmessage (conn : Conn) (ambient : Ambient) (results : List ReadResult)
  | closeClient (conn : Conn) (failed : Bool)
  | sendInloop (conn : Conn) (message : Bytes)
  | sendClient (conn : Conn) (writen : ℤ)
  | handleTimer (now : ℤ)

/-- An object that has been built and not deleted. -/
def State.Live (state : State) (conn : Conn) : Prop :=
  conn.2 < state.opened conn.1 ∧ state.deleted conn = 0

instance (state : State) (conn : Conn) : Decidable (state.Live conn) :=
  inferInstanceAs (Decidable (_ ∧ _))

/-- The four setters of callbacks, called in a row. -/
def setcallbacks (fn : Bool) (connection : Connection) : Connection :=
  (((connection.setclosecallback fn).seterrorcallback fn).setmessagecallback fn
    ).setsendcompletioncallback fn

/-- An object is assigned to. -/
def State.assign (state : State) (conn : Conn) (connection : Connection) : State :=
  { state with objects := Function.update state.objects conn connection }

/-- An object is deleted, which closes its descriptor. -/
def State.delete (state : State) (conn : Conn) : State :=
  { state with
    deleted := Function.update state.deleted conn (state.deleted conn + 1)
    eps := fun loop ↦ (state.eps loop).close (state.objects conn).fd }

/-- `closeconnection`, and `errorconnection`, which does the same. -/
def closeconnection (state : State) (conn : Conn) : State :=
  { state with connections := state.connections.erase (state.objects conn).fd }.delete conn

/-- What the server does with the callbacks of a call that closes. -/
def closed (state : State) (conn : Conn) (events : List Event) : State :=
  if .closecallback ∈ events ∨ .errorcallback ∈ events then closeconnection state conn else state

/-- The messages of a call of `onmessage`, with the clock at each, newest first. -/
def activities (conn : Conn) (ambient : Ambient) (events : List Event) : List Activity :=
  ((List.range (messages events).length).map fun count ↦ ⟨conn, ambient.now count⟩).reverse

/-- The branch of `handle_timer` for a connection that has timed out. -/
def evict (state : State) (it : Fd) (conn : Conn) : State :=
  let cleared := state.assign conn (setcallbacks false (state.objects conn))
  { cleared with connections := cleared.connections.erase it }.delete conn

section Steps

variable (threadnum : ℕ) (timeout : ℤ)

/-- The loop of `handle_timer`: the state it leaves and what it did. Nothing is said of an iterator
to an entry that is gone. -/
def walk (now : ℤ) (it : Option Fd) (state : State) : Option (State × List Action) :=
  match it with
  | none => some (state, [])
  | some it =>
    match _ : state.connections.get? it with
    | none => none
    | some conn =>
      if (state.objects conn).timeout now timeout then
        let evicted := evict state it conn
        (walk now (state.connections.next? it) evicted).map fun (final, actions) ↦
          (final, .examine it :: .erase it :: .delete conn (evicted.objects conn) :: actions)
      else
        (walk now (state.connections.next? it) state).map fun (final, actions) ↦
          (final, .examine it :: actions)
termination_by (state.connections.ahead it).length
decreasing_by
  · exact state.connections.length_ahead_erase_lt ‹_›
  · exact state.connections.length_ahead_next?_lt ‹_›

def handleTimer (now : ℤ) (state : State) : Option (State × List Action) :=
  walk timeout now state.connections.first? state

/-- A member function of an object has run on the thread of its loop. -/
def State.ran (state : State) (conn : Conn) (connection : Connection) (ep : Epoll) : State :=
  { state.assign conn connection with
    eps := Function.update state.eps (loopOf threadnum conn) ep }

def step (state : State) : Label → Option State
  | .newconnection fd this now =>
    if ∀ earlier, earlier < state.opened fd → ¬ state.Live (fd, earlier) then
      let conn := (fd, state.opened fd)
      match Connection.new this fd now (state.eps (loopOf threadnum conn)) with
      | .error _ => none
      | .ok (connection, ep) =>
        some { state.ran threadnum conn (setcallbacks true connection) ep with
          connections := state.connections.insert fd conn
          opened := Function.update state.opened fd (state.opened fd + 1)
          history := ⟨conn, now⟩ :: state.history }
    else none
  | .onmessage conn ambient results =>
    if state.Live conn then
      match (state.objects conn).onmessage ambient results (state.eps (loopOf threadnum conn)) with
      | .ok (.returned final ep events) =>
        some (closed { state.ran threadnum conn final ep with
          history := activities conn ambient events ++ state.history } conn events)
      | _ => none
    else none
  | .closeClient conn failed =>
    if state.Live conn then
      match (state.objects conn).clientchannel.remove (state.eps (loopOf threadnum conn)) with
      | .error _ => none
      | .ok (clientchannel, ep) =>
        let removed : Connection := { state.objects conn with clientchannel }
        let (final, events) := if failed then removed.errorClient else removed.closeClient
        some (closed (state.ran threadnum conn final ep) conn events)
    else none
  | .sendInloop conn message =>
    if state.Live conn then
      match (state.objects conn).sendInloop message (state.eps (loopOf threadnum conn)) with
      | .error _ => none
      | .ok (connection, ep) => some (state.ran threadnum conn connection ep)
    else none
  | .sendClient conn writen =>
    if state.Live conn then
      match (state.objects conn).sendClient writen (state.eps (loopOf threadnum conn)) with
      | .error _ => none
      | .ok (connection, ep, _) => some (state.ran threadnum conn connection ep)
    else none
  | .handleTimer now => (handleTimer timeout now state).map Prod.fst

/-- The clock at the last activity of a connection. -/
def lastActive (history : List Activity) (conn : Conn) : Option ℤ :=
  (history.find? fun activity ↦ activity.conn = conn).map Activity.clock

/-- More than `timeout` seconds have passed since the last activity of a connection. -/
def Expired (timeout now : ℤ) (history : List Activity) (conn : Conn) : Prop :=
  ∃ last ∈ lastActive history conn, timeout < now - last

instance (timeout now : ℤ) (history : List Activity) (conn : Conn) :
    Decidable (Expired timeout now history conn) :=
  inferInstanceAs (Decidable (∃ last ∈ lastActive history conn, timeout < now - last))

/-- The server before the first connection. -/
structure Initial (state : State) : Prop where
  connections : state.connections = .empty
  opened : state.opened = fun _ ↦ 0
  deleted : state.deleted = fun _ ↦ 0
  history : state.history = []

/-- The system, for a number of sub-loops and the time after which a connection is evicted. -/
def system : TransitionSystem State Label where
  initial := Initial
  step := step threadnum timeout

end Steps

/-! ### The loop of `handle_timer` -/

/-- What `timeout` answers for an entry. -/
def timedOut (timeout now : ℤ) (state : State) (entry : Fd × Conn) : Bool :=
  (state.objects entry.2).timeout now timeout

/-- What an iteration does with an entry. -/
def examination (timeout now : ℤ) (state : State) (entry : Fd × Conn) : List Action :=
  .examine entry.1 ::
    if timedOut timeout now state entry then
      [.erase entry.1, .delete entry.2 (setcallbacks false (state.objects entry.2))]
    else []

/-- Some entries are evicted, one after the other. -/
def evictAll (state : State) (entries : List (Fd × Conn)) : State :=
  entries.foldl (fun state entry ↦ evict state entry.1 entry.2) state

@[simp] theorem connections_evict (state : State) (it : Fd) (conn : Conn) :
    (evict state it conn).connections = state.connections.erase it := rfl

@[simp] theorem objects_evict_self (state : State) (it : Fd) (conn : Conn) :
    (evict state it conn).objects conn = setcallbacks false (state.objects conn) :=
  Function.update_self _ _ _

theorem objects_evict_of_ne (state : State) (it : Fd) {conn other : Conn} (hne : other ≠ conn) :
    (evict state it conn).objects other = state.objects other :=
  Function.update_of_ne hne _ _

/-- Clearing the callbacks twice is clearing them once. -/
theorem setcallbacks_objects_evict (state : State) (it : Fd) (conn other : Conn) :
    setcallbacks false ((evict state it conn).objects other) =
      setcallbacks false (state.objects other) := by
  by_cases hsame : other = conn
  · rw [hsame, objects_evict_self]
    rfl
  · rw [objects_evict_of_ne state it hsame]

/-- An eviction changes no time stamp. -/
theorem timedOut_evict (timeout now : ℤ) (state : State) (it : Fd) (conn : Conn) :
    timedOut timeout now (evict state it conn) = timedOut timeout now state := by
  funext entry
  by_cases hsame : entry.2 = conn
  · rw [timedOut, timedOut, hsame, objects_evict_self]
    rfl
  · rw [timedOut, timedOut, objects_evict_of_ne state it hsame]

theorem examination_evict (timeout now : ℤ) (state : State) (it : Fd) (conn : Conn) :
    examination timeout now (evict state it conn) = examination timeout now state := by
  funext entry
  rw [examination, examination, timedOut_evict, setcallbacks_objects_evict]

/-- What the iterator finds and leaves at an entry: the entry, the next one, and the entries without
it or with it behind. -/
theorem at_entry {state : State} {before rest : List (Fd × Conn)} {it : Fd} {conn : Conn}
    (hsplit : state.connections.entries = before ++ (it, conn) :: rest) :
    state.connections.get? it = some conn ∧
      state.connections.next? it = rest.head?.map Prod.fst ∧
      (evict state it conn).connections.entries = before ++ rest ∧
      state.connections.entries = (before ++ [(it, conn)]) ++ rest := by
  refine ⟨OrderedMap.get?_of_split hsplit, OrderedMap.next?_of_split hsplit,
    OrderedMap.erase_of_split hsplit, ?_⟩
  rw [hsplit, List.append_assoc, List.singleton_append]

/-- The loop, from the first entry it has not reached yet on: it examines each of the entries and
evicts those that have timed out. -/
theorem walk_eq (timeout now : ℤ) (rest : List (Fd × Conn)) :
    ∀ (before : List (Fd × Conn)) (state : State),
      state.connections.entries = before ++ rest →
        walk timeout now (rest.head?.map Prod.fst) state =
          some (evictAll state (rest.filter (timedOut timeout now state)),
            rest.flatMap (examination timeout now state)) := by
  induction rest with
  | nil =>
    intro before state _
    rw [List.head?_nil, Option.map_none, walk]
    rfl
  | cons entry rest ih =>
    intro before state hsplit
    obtain ⟨it, conn⟩ := entry
    obtain ⟨hget, hnext, herased, hbehind⟩ := at_entry hsplit
    rw [List.head?_cons, Option.map_some, walk]
    split
    · rename_i hnone
      rw [hget] at hnone
      cases hnone
    · rename_i other hother
      rw [hget] at hother
      cases hother
      rw [hnext]
      by_cases htimeout : (state.objects conn).timeout now timeout
      · have hkeep : timedOut timeout now state (it, conn) = true := htimeout
        rw [if_pos htimeout]
        dsimp only
        rw [ih before _ herased, timedOut_evict, examination_evict, List.filter_cons_of_pos hkeep,
          List.flatMap_cons, examination, if_pos hkeep, objects_evict_self]
        rfl
      · have hdrop : ¬ timedOut timeout now state (it, conn) = true := htimeout
        rw [if_neg htimeout, ih _ _ hbehind, List.filter_cons_of_neg hdrop, List.flatMap_cons,
          examination, if_neg hdrop]
        rfl

/-- The whole loop. -/
theorem handleTimer_eq (timeout now : ℤ) (state : State) :
    handleTimer timeout now state =
      some (evictAll state (state.connections.entries.filter (timedOut timeout now state)),
        state.connections.entries.flatMap (examination timeout now state)) :=
  walk_eq timeout now state.connections.entries [] state rfl

/-! ### The loop, statement by statement -/

/-- A state of the model in which the statements of `handle_timer` are steps of their own. -/
def embed (state : State) (now : ℤ) (loops : ℕ → Eviction.IoLoop) (main : Eviction.MainPhase) :
    Eviction.State :=
  { connections := state.connections, objects := state.objects, opened := state.opened,
    deleted := state.deleted, main, loops, now }

section Statements

variable (threadnum : ℕ) (timeout now : ℤ) (loops : ℕ → Eviction.IoLoop)

/-- The two statements for an entry that has not timed out. -/
theorem run_advance {state : State} {it : Fd} {conn : Conn}
    (hget : state.connections.get? it = some conn)
    (htimeout : ¬ (state.objects conn).timeout now timeout = true) :
    (Eviction.system threadnum timeout).run (embed state now loops (.testing (some it)))
        (List.replicate 2 .handleTimer) =
      some (embed state now loops (.testing (state.connections.next? it))) := by
  simp [TransitionSystem.run, Eviction.system, Eviction.step, Eviction.handleTimer, embed, hget,
    htimeout, List.replicate]

/-- The eight statements for an entry that has. -/
theorem run_evict {state : State} {it : Fd} {conn : Conn}
    (hget : state.connections.get? it = some conn)
    (htimeout : (state.objects conn).timeout now timeout = true) :
    (Eviction.system threadnum timeout).run (embed state now loops (.testing (some it)))
        (List.replicate 8 .handleTimer) =
      some (embed (evict state it conn) now loops (.testing (state.connections.next? it))) := by
  simp [TransitionSystem.run, Eviction.system, Eviction.step, Eviction.handleTimer, embed, hget,
    htimeout, List.replicate, Eviction.State.assign, Eviction.State.delete, Connection.setcallback,
    evict, State.assign, State.delete, setcallbacks]

/-- The statements of the loop, from the first entry it has not reached yet on. -/
theorem exists_run_walk (rest : List (Fd × Conn)) :
    ∀ (before : List (Fd × Conn)) (state : State),
      state.connections.entries = before ++ rest →
        ∃ count, (Eviction.system threadnum timeout).run
            (embed state now loops (.testing (rest.head?.map Prod.fst)))
            (List.replicate count .handleTimer) =
          some (embed (evictAll state (rest.filter (timedOut timeout now state))) now loops
            .idle) := by
  induction rest with
  | nil => exact fun before state _ ↦ ⟨1, rfl⟩
  | cons entry rest ih =>
    intro before state hsplit
    obtain ⟨it, conn⟩ := entry
    obtain ⟨hget, hnext, herased, hbehind⟩ := at_entry hsplit
    by_cases htimeout : (state.objects conn).timeout now timeout = true
    · have hfirst := run_evict threadnum timeout now loops hget htimeout
      have hkeep : timedOut timeout now state (it, conn) = true := htimeout
      obtain ⟨count, hrest⟩ := ih before _ herased
      refine ⟨8 + count, ?_⟩
      rw [← List.replicate_append_replicate, TransitionSystem.run_append]
      rw [hnext] at hfirst
      rw [timedOut_evict] at hrest
      rw [List.head?_cons, Option.map_some, hfirst, Option.bind_some, hrest,
        List.filter_cons_of_pos hkeep]
      rfl
    · have hfirst := run_advance threadnum timeout now loops hget htimeout
      have hdrop : ¬ timedOut timeout now state (it, conn) = true := htimeout
      obtain ⟨count, hrest⟩ := ih _ state hbehind
      refine ⟨2 + count, ?_⟩
      rw [← List.replicate_append_replicate, TransitionSystem.run_append]
      rw [hnext] at hfirst
      rw [List.head?_cons, Option.map_some, hfirst, Option.bind_some, hrest,
        List.filter_cons_of_neg hdrop]

/-- A tick of the timer is a run of its statements that nothing interrupts. -/
theorem exists_run_handleTimer {state final : State} {actions : List Action}
    (htimer : handleTimer timeout now state = some (final, actions)) (earlier : ℤ) :
    ∃ count, (Eviction.system threadnum timeout).run (embed state earlier loops .idle)
        (.timerfd now :: List.replicate count .handleTimer) =
      some (embed final now loops .idle) := by
  rw [handleTimer_eq] at htimer
  cases htimer
  obtain ⟨count, hrun⟩ :=
    exists_run_walk threadnum timeout now loops state.connections.entries [] state rfl
  exact ⟨count, hrun⟩

end Statements

/-! ### The time stamp -/

/-- What happens to other connections is no activity. -/
theorem lastActive_append_of_ne {recent : List Activity} {conn : Conn}
    (hrecent : ∀ activity ∈ recent, activity.conn ≠ conn) (history : List Activity) :
    lastActive (recent ++ history) conn = lastActive history conn := by
  have hnone : recent.find? (fun activity ↦ activity.conn = conn) = none :=
    List.find?_eq_none.mpr fun activity hactivity ↦ by simpa using hrecent activity hactivity
  rw [lastActive, List.find?_append, hnone, Option.none_or, lastActive]

theorem lastActive_cons_self (conn : Conn) (clock : ℤ) (history : List Activity) :
    lastActive (⟨conn, clock⟩ :: history) conn = some clock := by
  simp [lastActive]

theorem conn_of_mem_activities {conn : Conn} {ambient : Ambient} {events : List Event}
    {activity : Activity} (hactivity : activity ∈ activities conn ambient events) :
    activity.conn = conn := by
  simp only [activities, List.mem_reverse, List.mem_map] at hactivity
  obtain ⟨count, -, rfl⟩ := hactivity
  rfl

/-- The stamp of a drain is the clock at the last frame. -/
theorem stamp_concat (ambient : Ambient) (front : List Bytes) (payload : Bytes) (last : ℤ) :
    ∀ count,
      stamp ambient count (front ++ [payload]) last = ambient.now (count + front.length) := by
  induction front generalizing last with
  | nil => exact fun count ↦ rfl
  | cons first rest ih =>
    intro count
    rw [List.cons_append, stamp, ih, List.length_cons, Nat.add_right_comm, Nat.add_assoc]

/-- The last activity after a drain is its stamp. -/
theorem lastActive_activities {conn : Conn} {history : List Activity} {last : ℤ}
    (hlast : lastActive history conn = some last) (ambient : Ambient) {events : List Event}
    {dispatched : List Bytes} (hmessages : messages events = dispatched) :
    lastActive (activities conn ambient events ++ history) conn =
      some (stamp ambient 0 dispatched last) := by
  rcases List.eq_nil_or_concat dispatched with rfl | ⟨front, payload, rfl⟩
  · rw [activities, hmessages]
    exact hlast
  · rw [activities, hmessages, List.concat_eq_append, stamp_concat, List.length_append,
      List.length_singleton, List.range_succ, List.map_append, List.reverse_append, Nat.zero_add]
    exact lastActive_cons_self conn _ _

/-- A call of `onmessage` keeps the descriptor and the callbacks of its object, and sets its stamp
to its last activity. -/
theorem stamped_of_onmessage {ambient : Ambient} {results : List ReadResult}
    {connection final : Connection} {ep epNext : Epoll} {events : List Event}
    (hreturned : connection.onmessage ambient results ep = .ok (.returned final epNext events))
    (hset : connection.messagecallback = true) :
    final.fd = connection.fd ∧ final.messagecallback = true ∧
      ∀ conn history, lastActive history conn = some connection.lastTime →
        lastActive (activities conn ambient events ++ history) conn = some final.lastTime := by
  rcases onmessage_returned results connection ep hreturned with
    ⟨-, rfl, hdrain⟩ | ⟨-, -, hevents, hfinal⟩
  · obtain ⟨dispatched, left, rfl, rfl, -⟩ := drain_ok hdrain
    refine ⟨rfl, hset, fun conn history hlast ↦ lastActive_activities hlast ambient ?_⟩
    rw [messages_dispatches, if_pos hset]
  · have hmessages : messages events = [] := by
      rw [hevents]
      split_ifs <;> rfl
    rw [hfinal]
    refine ⟨rfl, hset, fun conn history hlast ↦ ?_⟩
    exact lastActive_activities hlast ambient hmessages

/-! ### The invariant -/

/-- An object that is alive has its descriptor and its message callback, and its stamp is its last
activity. -/
structure Tracked (history : List Activity) (conn : Conn) (connection : Connection) : Prop where
  fd : connection.fd = conn.1
  set : connection.messagecallback = true
  stamped : lastActive history conn = some connection.lastTime

/-- What holds in every state. -/
structure Inv (state : State) : Prop where
  once : ∀ conn, state.deleted conn ≤ 1
  unbuilt : ∀ conn : Conn, state.opened conn.1 ≤ conn.2 → state.deleted conn = 0
  mapped : ∀ fd conn, state.connections.get? fd = some conn → conn.1 = fd ∧ state.Live conn
  tracked : ∀ conn, state.Live conn → Tracked state.history conn (state.objects conn)

/-- The activities of another connection keep an object tracked. -/
theorem Tracked.append {history recent : List Activity} {conn : Conn} {connection : Connection}
    (htracked : Tracked history conn connection)
    (hrecent : ∀ activity ∈ recent, activity.conn ≠ conn) :
    Tracked (recent ++ history) conn connection :=
  ⟨htracked.fd, htracked.set, (lastActive_append_of_ne hrecent history).trans htracked.stamped⟩

section Steps

variable {threadnum : ℕ} {timeout : ℤ} {state next : State}

/-- An object is erased from the map and deleted. -/
theorem Inv.remove (hinv : Inv state) {conn : Conn} (hlive : state.Live conn)
    (hconnections : next.connections = state.connections.erase conn.1)
    (hobjects : ∀ other, other ≠ conn → next.objects other = state.objects other)
    (hopened : next.opened = state.opened)
    (hdeleted : next.deleted = Function.update state.deleted conn (state.deleted conn + 1))
    (hhistory : next.history = state.history) : Inv next := by
  have hself : next.deleted conn = 1 := by rw [hdeleted, Function.update_self, hlive.2]
  have hother : ∀ other, other ≠ conn → next.deleted other = state.deleted other := by
    intro other hne
    rw [hdeleted, Function.update_of_ne hne]
  refine ⟨fun other ↦ ?_, fun other hunbuilt ↦ ?_, fun fd other hget ↦ ?_, fun other hkept ↦ ?_⟩
  · by_cases hsame : other = conn
    · exact (hsame ▸ hself).le
    · exact (hother other hsame).symm ▸ hinv.once other
  · rw [hopened] at hunbuilt
    have hne : other ≠ conn := by
      rintro rfl
      exact absurd hlive.1 (Nat.not_lt.mpr hunbuilt)
    rw [hother other hne]
    exact hinv.unbuilt other hunbuilt
  · rw [hconnections, OrderedMap.get?_erase] at hget
    split_ifs at hget with hkey
    obtain ⟨rfl, hbuilt, hzero⟩ := hinv.mapped fd other hget
    have hne : other ≠ conn := fun hsame ↦ hkey (by rw [hsame])
    exact ⟨rfl, hopened ▸ hbuilt, (hother other hne).trans hzero⟩
  · obtain ⟨hbuilt, hzero⟩ := hkept
    have hne : other ≠ conn := by
      rintro rfl
      rw [hself] at hzero
      cases hzero
    rw [hopened] at hbuilt
    rw [hother other hne] at hzero
    rw [hobjects other hne, hhistory]
    exact hinv.tracked other ⟨hbuilt, hzero⟩

/-- A member function of an object has run, and its activities are recorded. -/
theorem Inv.ran (hinv : Inv state) {conn : Conn} {connection : Connection} (ep : Epoll)
    {recent : List Activity} (hrecent : ∀ activity ∈ recent, activity.conn = conn)
    (htracked : Tracked (recent ++ state.history) conn connection) :
    Inv { state.ran threadnum conn connection ep with history := recent ++ state.history } := by
  refine { hinv with tracked := fun other hother ↦ ?_ }
  change Tracked (recent ++ state.history) other
    (Function.update state.objects conn connection other)
  by_cases hsame : other = conn
  · subst hsame
    rwa [Function.update_self]
  · rw [Function.update_of_ne hsame]
    exact (hinv.tracked other hother).append
      fun activity hactivity heq ↦ hsame (heq.symm.trans (hrecent activity hactivity))

/-- A member function that records no activity has run. -/
theorem Inv.ran_idle (hinv : Inv state) {conn : Conn} (hlive : state.Live conn)
    {connection : Connection} (ep : Epoll) (hfd : connection.fd = (state.objects conn).fd)
    (hset : connection.messagecallback = (state.objects conn).messagecallback)
    (htime : connection.lastTime = (state.objects conn).lastTime) :
    Inv (state.ran threadnum conn connection ep) := by
  have hold := hinv.tracked conn hlive
  exact @Inv.ran threadnum state hinv conn connection ep [] nofun
    ⟨hfd.trans hold.fd, hset.trans hold.set, htime ▸ hold.stamped⟩

/-- The server deals with the callbacks of a call. -/
theorem Inv.closed (hinv : Inv state) {conn : Conn} (hlive : state.Live conn)
    (events : List Event) : Inv (closed state conn events) := by
  unfold IdleEviction.closed
  split_ifs
  · refine hinv.remove hlive ?_ (fun _ _ ↦ rfl) rfl rfl rfl
    rw [← (hinv.tracked conn hlive).fd]
    rfl
  · exact hinv

/-- An entry is evicted. -/
theorem Inv.evict (hinv : Inv state) {it : Fd} {conn : Conn}
    (hget : state.connections.get? it = some conn) : Inv (evict state it conn) := by
  obtain ⟨rfl, hlive⟩ := hinv.mapped it conn hget
  exact hinv.remove hlive rfl (fun other hne ↦ objects_evict_of_ne state _ hne) rfl rfl rfl

/-- Some entries are evicted. -/
theorem Inv.evictAll (entries : List (Fd × Conn)) :
    ∀ {state : State}, Inv state →
      (∀ entry ∈ entries, state.connections.get? entry.1 = some entry.2) →
      (entries.map Prod.fst).Nodup → Inv (evictAll state entries) := by
  induction entries with
  | nil => exact fun hinv _ _ ↦ hinv
  | cons entry rest ih =>
    intro state hinv hget hkeys
    obtain ⟨hentry, hrest⟩ := List.forall_mem_cons.mp hget
    rw [List.map_cons, List.nodup_cons] at hkeys
    refine ih (hinv.evict hentry) (fun other hother ↦ ?_) hkeys.2
    have hne : other.1 ≠ entry.1 := fun heq ↦ hkeys.1 (heq ▸ List.mem_map_of_mem hother)
    rw [connections_evict, OrderedMap.get?_erase_of_ne _ hne]
    exact hrest other hother

/-- What the constructor makes of the descriptor and the clock. -/
theorem new_ok {this : ℕ} {clientfd : Fd} {now : ℤ} {ep epNext : Epoll} {connection : Connection}
    (hnew : Connection.new this clientfd now ep = .ok (connection, epNext)) :
    connection.fd = clientfd ∧ connection.lastTime = now := by
  rw [Connection.new] at hnew
  split at hnew
  · cases hnew
  · cases hnew
    exact ⟨rfl, rfl⟩

/-- `sendInloop` keeps the descriptor, the message callback and the stamp. -/
theorem kept_of_sendInloop {connection final : Connection} {message : Bytes} {ep epNext : Epoll}
    (hsend : connection.sendInloop message ep = .ok (final, epNext)) :
    final.fd = connection.fd ∧ final.messagecallback = connection.messagecallback ∧
      final.lastTime = connection.lastTime := by
  rw [Connection.sendInloop] at hsend
  split at hsend
  · cases hsend
  · cases hsend
    exact ⟨rfl, rfl, rfl⟩

/-- `sendClient` keeps the descriptor, the message callback and the stamp. -/
theorem kept_of_sendClient {connection final : Connection} {writen : ℤ} {ep epNext : Epoll}
    {events : List Event} (hsend : connection.sendClient writen ep = .ok (final, epNext, events)) :
    final.fd = connection.fd ∧ final.messagecallback = connection.messagecallback ∧
      final.lastTime = connection.lastTime := by
  rw [Connection.sendClient, sent_eq] at hsend
  split at hsend
  · split at hsend
    · cases hsend
    · cases hsend
      exact ⟨rfl, rfl, rfl⟩
  · cases hsend
    exact ⟨rfl, rfl, rfl⟩

/-- `newconnection` adds an object that is alive. -/
theorem Inv.newconnection (hinv : Inv state) {fd : Fd} {now : ℤ} {connection : Connection}
    (ep : Epoll) (hfd : connection.fd = fd) (hnow : connection.lastTime = now) :
    Inv { state.ran threadnum (fd, state.opened fd) (setcallbacks true connection) ep with
      connections := state.connections.insert fd (fd, state.opened fd)
      opened := Function.update state.opened fd (state.opened fd + 1)
      history := ⟨(fd, state.opened fd), now⟩ :: state.history } := by
  have hfresh : state.deleted (fd, state.opened fd) = 0 := hinv.unbuilt (fd, state.opened fd) le_rfl
  have hopened : ∀ other, state.opened other ≤
      Function.update state.opened fd (state.opened fd + 1) other := by
    intro other
    by_cases hsame : other = fd
    · rw [hsame, Function.update_self]
      exact Nat.le_succ _
    · rw [Function.update_of_ne hsame]
  refine ⟨hinv.once, fun other hunbuilt ↦ hinv.unbuilt other ((hopened _).trans hunbuilt),
    fun key other hget ↦ ?_, fun other hother ↦ ?_⟩
  · dsimp only at hget
    rw [OrderedMap.get?_insert] at hget
    split_ifs at hget with hkey
    · cases hget
      refine ⟨hkey.symm, ?_, hfresh⟩
      change state.opened fd < Function.update state.opened fd (state.opened fd + 1) fd
      rw [Function.update_self]
      exact Nat.lt_succ_self _
    · obtain ⟨hown, hbuilt, hzero⟩ := hinv.mapped key other hget
      exact ⟨hown, hbuilt.trans_le (hopened _), hzero⟩
  · change Tracked (⟨(fd, state.opened fd), now⟩ :: state.history) other
      (Function.update state.objects (fd, state.opened fd) (setcallbacks true connection) other)
    by_cases hsame : other = (fd, state.opened fd)
    · subst hsame
      rw [Function.update_self]
      refine ⟨hfd, rfl, ?_⟩
      rw [lastActive_cons_self]
      exact congrArg some hnow.symm
    · have hold : state.Live other := by
        obtain ⟨hbuilt, hzero⟩ := hother
        refine ⟨?_, hzero⟩
        obtain ⟨key, index⟩ := other
        change index < Function.update state.opened fd (state.opened fd + 1) key at hbuilt
        by_cases hkey : key = fd
        · subst hkey
          rw [Function.update_self] at hbuilt
          have hindex : index ≠ state.opened key := fun heq ↦ hsame (by rw [heq])
          exact Nat.lt_of_le_of_ne (Nat.le_of_lt_succ hbuilt) hindex
        · rwa [Function.update_of_ne hkey] at hbuilt
      rw [Function.update_of_ne hsame]
      refine @Tracked.append _ [⟨(fd, state.opened fd), now⟩] _ _ (hinv.tracked other hold) ?_
      intro activity hactivity heq
      rw [List.mem_singleton.mp hactivity] at heq
      exact hsame heq.symm

/-- Every step keeps the invariant. -/
theorem Inv.step (hinv : Inv state) {label : Label}
    (hstep : step threadnum timeout state label = some next) : Inv next := by
  cases label with
  | newconnection fd this now =>
    rw [IdleEviction.step] at hstep
    split_ifs at hstep with hfree
    dsimp only at hstep
    split at hstep
    · cases hstep
    · rename_i connection ep hnew
      cases hstep
      obtain ⟨hfd, hnow⟩ := new_ok hnew
      exact hinv.newconnection ep hfd hnow
  | onmessage conn ambient results =>
    rw [IdleEviction.step] at hstep
    split_ifs at hstep with hlive
    split at hstep
    · rename_i final ep events hreturned
      cases hstep
      have hold := hinv.tracked conn hlive
      obtain ⟨hfd, hset, hstamped⟩ := stamped_of_onmessage hreturned hold.set
      have hran := @Inv.ran threadnum state hinv conn final ep (activities conn ambient events)
        (fun _ ↦ conn_of_mem_activities) ⟨hfd.trans hold.fd, hset, hstamped conn _ hold.stamped⟩
      exact hran.closed hlive events
    · cases hstep
  | closeClient conn failed =>
    rw [IdleEviction.step] at hstep
    split at hstep
    · rename_i hlive
      split at hstep
      · cases hstep
      · rename_i clientchannel ep hremove
        cases failed with
        | false | true =>
          cases hstep
          refine Inv.closed (hinv.ran_idle hlive ep ?_ ?_ ?_) hlive _ <;> rfl
    · cases hstep
  | sendInloop conn message =>
    rw [IdleEviction.step] at hstep
    split_ifs at hstep with hlive
    split at hstep
    · cases hstep
    · rename_i connection ep hsend
      cases hstep
      obtain ⟨hfd, hset, htime⟩ := kept_of_sendInloop hsend
      exact hinv.ran_idle hlive ep hfd hset htime
  | sendClient conn writen =>
    rw [IdleEviction.step] at hstep
    split_ifs at hstep with hlive
    split at hstep
    · cases hstep
    · rename_i connection ep events hsend
      cases hstep
      obtain ⟨hfd, hset, htime⟩ := kept_of_sendClient hsend
      exact hinv.ran_idle hlive ep hfd hset htime
  | handleTimer now =>
    rw [IdleEviction.step, handleTimer_eq] at hstep
    cases hstep
    refine hinv.evictAll _ (fun entry hentry ↦ ?_) ?_
    · exact OrderedMap.get?_of_mem (List.mem_of_mem_filter hentry)
    · exact state.connections.nodup_keys.sublist (List.filter_sublist.map _)

/-- The invariant holds in every state of every run. -/
theorem inv_of_reachable (hreach : (system threadnum timeout).Reachable state) : Inv state := by
  refine hreach.invariant Inv (fun start hstart ↦ ?_) fun _ _ _ hinv _ hstep ↦ hinv.step hstep
  obtain ⟨hconnections, hopened, hdeleted, -⟩ := hstart
  refine ⟨fun conn ↦ by simp [hdeleted], fun conn _ ↦ by rw [hdeleted], fun fd conn hget ↦ ?_,
    fun conn hlive ↦ ?_⟩
  · rw [hconnections] at hget
    cases hget
  · exact absurd hlive.1 (by simp [hopened])

end Steps

/-! ### What a tick leaves -/

/-- Erasing the selected ones of the entries from some entry on filters them. -/
theorem entries_evictAll (select : Fd × Conn → Bool) (rest : List (Fd × Conn)) :
    ∀ (before : List (Fd × Conn)) (state : State), state.connections.entries = before ++ rest →
      (evictAll state (rest.filter select)).connections.entries =
        before ++ rest.filter fun entry ↦ !select entry := by
  induction rest with
  | nil => exact fun before state hsplit ↦ hsplit
  | cons entry rest ih =>
    intro before state hsplit
    obtain ⟨-, -, herased, hbehind⟩ := at_entry hsplit
    by_cases hselect : select entry = true
    · rw [List.filter_cons_of_pos hselect, List.filter_cons_of_neg (by simp [hselect])]
      exact ih before _ herased
    · rw [List.filter_cons_of_neg hselect, List.filter_cons_of_pos (by simp [hselect]),
        ih _ state hbehind, List.append_assoc, List.singleton_append]

/-- Every evicted object is deleted once more. -/
theorem deleted_evictAll (entries : List (Fd × Conn)) (state : State) (conn : Conn) :
    (evictAll state entries).deleted conn =
      state.deleted conn + (entries.map Prod.snd).count conn := by
  induction entries generalizing state with
  | nil => rfl
  | cons entry rest ih =>
    change (evictAll (evict state entry.1 entry.2) rest).deleted conn = _
    rw [ih, List.map_cons, List.count_cons]
    change Function.update state.deleted entry.2 (state.deleted entry.2 + 1) conn + _ = _
    by_cases hsame : conn = entry.2
    · subst hsame
      rw [Function.update_self, if_pos (beq_self_eq_true _)]
      omega
    · have hne : ¬ (entry.2 == conn) = true := by simpa using Ne.symm hsame
      rw [Function.update_of_ne hsame, if_neg hne, Nat.add_zero]

/-- The objects that are not evicted stay as they are. -/
theorem objects_evictAll (entries : List (Fd × Conn)) (state : State) {conn : Conn}
    (hkept : conn ∉ entries.map Prod.snd) :
    (evictAll state entries).objects conn = state.objects conn := by
  induction entries generalizing state with
  | nil => rfl
  | cons entry rest ih =>
    rw [List.map_cons] at hkept
    exact (ih _ (List.not_mem_of_not_mem_cons hkept)).trans
      (objects_evict_of_ne state _ (List.ne_of_not_mem_cons hkept))

/-- A descriptor that is not evicted stays registered as it is. -/
theorem interest_evictAll (entries : List (Fd × Conn)) (state : State) (loop : ℕ) {fd : Fd}
    (hkept : ∀ entry ∈ entries, (state.objects entry.2).fd ≠ fd) :
    ((evictAll state entries).eps loop).interest fd = (state.eps loop).interest fd := by
  induction entries generalizing state with
  | nil => rfl
  | cons entry rest ih =>
    obtain ⟨hentry, hrest⟩ := List.forall_mem_cons.mp hkept
    have hclosed : ((evict state entry.1 entry.2).objects entry.2).fd =
        (state.objects entry.2).fd := by
      rw [objects_evict_self]
      rfl
    refine (ih (evict state entry.1 entry.2) fun other hother ↦ ?_).trans ?_
    · by_cases hsame : other.2 = entry.2
      · rw [hsame, hclosed]
        exact hentry
      · rw [objects_evict_of_ne state _ hsame]
        exact hrest other hother
    · exact Function.update_of_ne (fun heq ↦ hentry (hclosed.symm.trans heq.symm)) _ _

/-- What a tick of the timer is to do: it examines every entry of the map once, in order, erases the
expired ones, and deletes their objects, which are alive and have their callbacks cleared; the other
entries and objects stay as they are. -/
structure Evicts (timeout now : ℤ) (state next : State) (actions : List Action) : Prop where
  examined : actions = state.connections.entries.flatMap fun entry ↦
    .examine entry.1 ::
      if Expired timeout now state.history entry.2 then
        [.erase entry.1, .delete entry.2 (setcallbacks false (state.objects entry.2))]
      else []
  distinct : (state.connections.entries.map Prod.fst).Nodup ∧
    (state.connections.entries.map Prod.snd).Nodup
  cleared : ∀ conn connection, .delete conn connection ∈ actions →
    connection.closecallback = false ∧ connection.errorcallback = false ∧
      connection.messagecallback = false ∧ connection.sendcompletioncallback = false
  kept : next.connections.entries =
    state.connections.entries.filter fun entry ↦ ¬ Expired timeout now state.history entry.2
  alive : ∀ entry ∈ state.connections.entries,
    state.deleted entry.2 = 0 ∧ ∃ last, lastActive state.history entry.2 = some last
  deleted : ∀ conn, next.deleted conn =
    if state.connections.get? conn.1 = some conn ∧ Expired timeout now state.history conn then 1
    else state.deleted conn
  objects : ∀ conn,
    ¬ (state.connections.get? conn.1 = some conn ∧ Expired timeout now state.history conn) →
      next.objects conn = state.objects conn
  registered : ∀ loop, ∀ entry ∈ next.connections.entries,
    (next.eps loop).interest entry.1 = (state.eps loop).interest entry.1

section Tick

variable {timeout now : ℤ} {state : State}

/-- An object in the map is asked about its last activity. -/
theorem timedOut_eq (hinv : Inv state) {entry : Fd × Conn}
    (hentry : entry ∈ state.connections.entries) :
    timedOut timeout now state entry = decide (Expired timeout now state.history entry.2) := by
  obtain ⟨-, hlive⟩ := hinv.mapped _ _ (OrderedMap.get?_of_mem hentry)
  rw [Bool.eq_iff_iff, decide_eq_true_iff, timedOut, Connection.timeout, decide_eq_true_iff,
    Expired, (hinv.tracked _ hlive).stamped]
  simp

/-- An object in the map is there under its own descriptor. -/
theorem mem_entries_iff (hinv : Inv state) (entry : Fd × Conn) :
    entry ∈ state.connections.entries ↔
      entry.1 = entry.2.1 ∧ state.connections.get? entry.2.1 = some entry.2 := by
  constructor
  · intro hentry
    have hget := OrderedMap.get?_of_mem hentry
    obtain ⟨hown, -⟩ := hinv.mapped _ _ hget
    exact ⟨hown.symm, hown ▸ hget⟩
  · rintro ⟨hown, hget⟩
    obtain ⟨before, after, hsplit⟩ := OrderedMap.exists_split_of_get? hget
    rw [hsplit, ← hown]
    simp

/-- The evicted objects are the expired ones in the map. -/
theorem mem_evicted_iff (hinv : Inv state) (conn : Conn) :
    conn ∈ (state.connections.entries.filter (timedOut timeout now state)).map Prod.snd ↔
      state.connections.get? conn.1 = some conn ∧ Expired timeout now state.history conn := by
  rw [List.mem_map]
  constructor
  · rintro ⟨entry, hentry, rfl⟩
    obtain ⟨hmem, htimeout⟩ := List.mem_filter.mp hentry
    rw [timedOut_eq hinv hmem] at htimeout
    exact ⟨((mem_entries_iff hinv entry).mp hmem).2, of_decide_eq_true htimeout⟩
  · rintro ⟨hget, hexpired⟩
    have hmem : (conn.1, conn) ∈ state.connections.entries :=
      (mem_entries_iff hinv _).mpr ⟨rfl, hget⟩
    refine ⟨(conn.1, conn), List.mem_filter.mpr ⟨hmem, ?_⟩, rfl⟩
    rw [timedOut_eq hinv hmem]
    exact decide_eq_true hexpired

/-- A tick does what it is to do. -/
theorem evicts (hinv : Inv state) :
    Evicts timeout now state
      (evictAll state (state.connections.entries.filter (timedOut timeout now state)))
      (state.connections.entries.flatMap (examination timeout now state)) := by
  have hdecide : ∀ entry ∈ state.connections.entries,
      timedOut timeout now state entry = decide (Expired timeout now state.history entry.2) :=
    fun entry hentry ↦ timedOut_eq hinv hentry
  have hconns : (state.connections.entries.map Prod.snd).Nodup := by
    refine List.Nodup.of_map Prod.fst ?_
    have hkeys : (state.connections.entries.map Prod.snd).map Prod.fst =
        state.connections.entries.map Prod.fst := by
      rw [List.map_map]
      exact List.map_congr_left fun entry hentry ↦ ((mem_entries_iff hinv entry).mp hentry).1.symm
    exact hkeys ▸ state.connections.nodup_keys
  have halive : ∀ entry ∈ state.connections.entries,
      state.deleted entry.2 = 0 ∧ ∃ last, lastActive state.history entry.2 = some last := by
    intro entry hentry
    obtain ⟨-, hlive⟩ := hinv.mapped _ _ (OrderedMap.get?_of_mem hentry)
    exact ⟨hlive.2, _, (hinv.tracked _ hlive).stamped⟩
  have hkept : (evictAll state (state.connections.entries.filter
      (timedOut timeout now state))).connections.entries =
        state.connections.entries.filter
          fun entry ↦ ¬ Expired timeout now state.history entry.2 := by
    rw [entries_evictAll (timedOut timeout now state) state.connections.entries [] state rfl,
      List.nil_append]
    refine List.filter_congr fun entry hentry ↦ ?_
    rw [hdecide entry hentry, decide_not]
  refine ⟨?_, ⟨state.connections.nodup_keys, hconns⟩, ?_, hkept, halive, fun conn ↦ ?_,
    fun conn hnot ↦ ?_, fun loop entry hentry ↦ ?_⟩
  · refine List.flatMap_congr fun entry hentry ↦ ?_
    rw [examination, hdecide entry hentry]
    simp only [decide_eq_true_eq]
  · intro conn connection hdelete
    obtain ⟨entry, -, haction⟩ := List.mem_flatMap.mp hdelete
    rw [examination] at haction
    split_ifs at haction
    · simp only [List.mem_cons, reduceCtorEq, List.not_mem_nil, or_false, false_or,
        Action.delete.injEq] at haction
      rw [haction.2]
      exact ⟨rfl, rfl, rfl, rfl⟩
    · simp at haction
  · rw [deleted_evictAll]
    split_ifs with hevicted
    · have hmem := (mem_evicted_iff hinv conn).mpr hevicted
      have hnodup : ((state.connections.entries.filter (timedOut timeout now state)).map
          Prod.snd).Nodup := hconns.sublist (List.filter_sublist.map _)
      have hzero := (hinv.mapped _ _ hevicted.1).2.2
      rw [List.count_eq_one_of_mem hnodup hmem, hzero]
    · have hnot := fun hmem ↦ hevicted ((mem_evicted_iff hinv conn).mp hmem)
      rw [List.count_eq_zero_of_not_mem hnot, Nat.add_zero]
  · exact objects_evictAll _ _ fun hmem ↦ hnot ((mem_evicted_iff hinv conn).mp hmem)
  · rw [hkept] at hentry
    obtain ⟨hmem, hfresh⟩ := List.mem_filter.mp hentry
    refine interest_evictAll _ state loop fun other hother heq ↦ ?_
    obtain ⟨hotherMem, htimeout⟩ := List.mem_filter.mp hother
    obtain ⟨hown, hlive⟩ := hinv.mapped _ _ (OrderedMap.get?_of_mem hotherMem)
    have hkey : other.1 = entry.1 := hown.symm.trans ((hinv.tracked _ hlive).fd.symm.trans heq)
    have hget := OrderedMap.get?_of_mem hotherMem
    rw [hkey, OrderedMap.get?_of_mem hmem] at hget
    rw [hdecide other hotherMem, ← Option.some.inj hget] at htimeout
    exact of_decide_eq_true hfresh (of_decide_eq_true htimeout)

/-- A connection with an activity in the last `timeout` seconds has not expired, provided that none
of its later activities has an earlier clock. -/
theorem not_expired_of_recent {before after : List Activity} {activity : Activity}
    (hhistory : state.history = before ++ activity :: after)
    (hlater : ∀ later ∈ before, later.conn = activity.conn → activity.clock ≤ later.clock)
    (hrecent : now - activity.clock ≤ timeout) :
    ¬ Expired timeout now state.history activity.conn := by
  rintro ⟨last, hlast, hexpired⟩
  have hclock : activity.clock ≤ last := by
    rw [hhistory, lastActive, List.find?_append] at hlast
    cases hfound : before.find? (fun other ↦ other.conn = activity.conn) with
    | none =>
      rw [hfound, Option.none_or, List.find?_cons_of_pos (by simp)] at hlast
      exact (Option.some.inj hlast).le
    | some later =>
      rw [hfound] at hlast
      obtain rfl : later.clock = last := Option.some.inj hlast
      have hconn := List.find?_some hfound
      exact hlater later (List.mem_of_find?_eq_some hfound) (of_decide_eq_true hconn)
  omega

/-- A call of `onmessage` after which there is no complete frame is no activity. -/
theorem history_of_noFrame {threadnum : ℕ} {conn : Conn} {ambient : Ambient}
    {results : List ReadResult} {next : State}
    (hstep : step threadnum timeout state (.onmessage conn ambient results) = some next)
    (hnoFrame : Buffer.frameParser.next
      ((state.objects conn).inputbuffer.buf ++ bytesOf results) = none) :
    next.history = state.history := by
  rw [step] at hstep
  split_ifs at hstep
  split at hstep
  · rename_i final ep events hreturned
    cases hstep
    have hmessages : messages events = [] := by
      rcases onmessage_returned results _ _ hreturned with ⟨-, -, hdrain⟩ | ⟨-, -, hevents, -⟩
      · obtain ⟨dispatched, left, -, rfl, hfirst⟩ := drain_ok hdrain
        have hnone : dispatched = [] := by
          by_contra hne
          obtain ⟨found, hfound, -⟩ := hfirst.mp hne
          change found ∈ Buffer.frameParser.next (_ ++ bytesOf results) at hfound
          rw [hnoFrame] at hfound
          cases hfound
        rw [messages_dispatches, hnone, ite_self]
      · rw [hevents]
        split_ifs <;> rfl
    have hhistory : activities conn ambient events ++ state.history = state.history := by
      rw [activities, hmessages]
      rfl
    unfold closed
    split_ifs <;> exact hhistory
  · cases hstep

end Tick

/-- In every state of a run, a tick of the timer examines every entry of the map once and evicts
exactly the connections whose last activity is more than `timeout` seconds ago. So it evicts none
with an activity within that time (and none with an earlier clock after it); and a call of
`onmessage` that leaves a partial frame only is no activity. -/
theorem evicts_exactly {threadnum : ℕ} {timeout : ℤ} {state : State}
    (hreach : (system threadnum timeout).Reachable state) (now : ℤ) :
    (∃ next actions, handleTimer timeout now state = some (next, actions) ∧
      Evicts timeout now state next actions) ∧
    (∀ before after activity, state.history = before ++ activity :: after →
      (∀ later ∈ before, later.conn = activity.conn → activity.clock ≤ later.clock) →
        now - activity.clock ≤ timeout → ¬ Expired timeout now state.history activity.conn) ∧
    (∀ conn ambient results next,
      step threadnum timeout state (.onmessage conn ambient results) = some next →
        Buffer.frameParser.next ((state.objects conn).inputbuffer.buf ++ bytesOf results) = none →
          next.history = state.history) :=
  ⟨⟨_, _, handleTimer_eq timeout now state, evicts (inv_of_reachable hreach)⟩,
    fun _ _ _ ↦ not_expired_of_recent, fun _ _ _ _ ↦ history_of_noFrame⟩

/-- Two neighbours that have expired, and a connection that has read a frame since. -/
theorem evicts_exactly_neighbours :
    ∃ state, (system 2 10).Reachable state ∧
      state.connections.entries.map Prod.fst = [5, 6, 7] ∧
      ∃ next actions, handleTimer 10 105 state = some (next, actions) ∧
        next.connections.entries.map Prod.fst = [7] := by
  have hinitial : Initial ⟨.empty, fun _ ↦ .constructed 0 0 0, fun _ ↦ 0, fun _ ↦ 0,
    fun _ ↦ .epollCreate, []⟩ := ⟨rfl, rfl, rfl, rfl⟩
  obtain ⟨built, hbuilt, hlive, hinput, hset, hopened⟩ : ∃ built,
      (system 2 10).Reachable built ∧ built.Live (7, 0) ∧
      (built.objects (7, 0)).inputbuffer = ⟨[]⟩ ∧
      (built.objects (7, 0)).messagecallback = true ∧
      built.connections.entries = [(5, (5, 0)), (6, (6, 0)), (7, (7, 0))] ∧
      built.history = [⟨(7, 0), 2⟩, ⟨(6, 0), 1⟩, ⟨(5, 0), 0⟩] :=
    ⟨_, .of_run (.initial hinitial)
      [.newconnection 5 1 0, .newconnection 6 2 1, .newconnection 7 3 2] rfl, by decide, rfl, rfl,
      rfl, rfl⟩
  let ambient : Ambient := ⟨fun _ _ ↦ 0, fun _ ↦ 100⟩
  let results : List ReadResult := [.data ⟨[1, 0, 0, 0, 97], by decide⟩, .failed EAGAIN]
  have hdrain : ∀ connection : Connection, connection.inputbuffer = ⟨[1, 0, 0, 0, 97]⟩ →
      connection.drain ambient 0 =
        .ok ({ connection with inputbuffer := ⟨[]⟩, lastTime := 100 },
          if connection.messagecallback then [.messagecallback [97]] else []) := by
    intro connection hframe
    have hcall : connection.inputbuffer.getmessage (ambient.stale 0) = .ok ([97], ⟨[]⟩) := by
      rw [hframe]
      rfl
    rw [drain_of_message hcall (by decide), drain_of_noMessage rfl]
  have hmessage : (built.objects (7, 0)).onmessage ambient results
      (built.eps (loopOf 2 (7, 0))) =
        .ok (.returned { built.objects (7, 0) with inputbuffer := ⟨[]⟩, lastTime := 100 }
          (built.eps (loopOf 2 (7, 0))) [.messagecallback [97]]) := by
    rw [onmessage, onmessage, if_neg (by decide), if_pos (by decide), hinput]
    dsimp only
    rw [hdrain _ rfl, hset]
    rfl
  have hstep : (system 2 10).step built (.onmessage (7, 0) ambient results) =
      some { built.ran 2 (7, 0)
          { built.objects (7, 0) with inputbuffer := ⟨[]⟩, lastTime := 100 }
          (built.eps (loopOf 2 (7, 0))) with
        history := ⟨(7, 0), 100⟩ :: built.history } := by
    rw [system]
    dsimp only
    rw [step, if_pos hlive, hmessage]
    rfl
  obtain ⟨state, hreach, hentries, hhistory⟩ : ∃ state, (system 2 10).Reachable state ∧
      state.connections.entries = [(5, (5, 0)), (6, (6, 0)), (7, (7, 0))] ∧
      state.history = [⟨(7, 0), 100⟩, ⟨(7, 0), 2⟩, ⟨(6, 0), 1⟩, ⟨(5, 0), 0⟩] :=
    ⟨_, .step hbuilt trivial hstep, hopened.1,
      congrArg (List.cons (⟨(7, 0), 100⟩ : Activity)) hopened.2⟩
  obtain ⟨⟨next, actions, htimer, hevicts⟩, -, -⟩ := evicts_exactly hreach 105
  refine ⟨state, hreach, by rw [hentries]; rfl, next, actions, htimer, ?_⟩
  rw [hevicts.kept, hentries, hhistory]
  decide

end Reactor.IdleEviction
