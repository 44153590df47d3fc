import Reactor.EdgeTriggering
import Reactor.IdleEviction

/-!
# The interest lists of the sub-loops

Three places say which connections the server has: the map of connections, the flag `inepoll_` of
each channel, and the interest list of each epoll instance, which is in the kernel. The server does
not compare them. A constructor adds its descriptor to the instance of its loop; `remove` clears the
flag but leaves the entry in the list, with no events; and the entry goes when the descriptor is
closed, in the destructor.

This is the server of `IdleEviction`, where openings, calls on the connections, closes and ticks of
the timer happen one at a time. At the start the `eventfd` of each sub-loop is registered, by the
constructor of the loop, and nothing else. The kernel gives descriptors to connections that are not
open. `Registered` is how the three places agree between two operations: the objects that are alive
are those in the map, and they are registered as `EdgeTriggering.Sound` says. So the interest lists
are a function of the map (`registered_exactly`), and no `epoll_ctl` ever fails, so that none of
them ends the program (`never_exits`): what `remove` leaves behind is gone before a descriptor is
used again. What does end it is a `::send` that raises `SIGPIPE`, and with no sub-loop the division
of `newconnection` by their number.
-/

set_option autoImplicit false
set_option relaxedAutoImplicit false

namespace Reactor.InterestList

open Library Connection IdleEviction
open Lifetime (Conn loopOf)
open EdgeTriggering (Sound SameElse)

/-- The `eventfd` of each sub-loop, and the address of its channel. -/
structure EventFds where
  fd : ℕ → Fd
  channel : ℕ → ℕ

/-- The descriptor is the `eventfd` of one of the sub-loops. -/
def EventFds.Has (wakeup : EventFds) (threadnum : ℕ) (fd : Fd) : Prop :=
  ∃ loop < threadnum, wakeup.fd loop = fd

instance (wakeup : EventFds) (threadnum : ℕ) (fd : Fd) : Decidable (wakeup.Has threadnum fd) :=
  inferInstanceAs (Decidable (∃ loop < threadnum, wakeup.fd loop = fd))

/-- What the constructor of a sub-loop registers under a descriptor. -/
def EventFds.entry (wakeup : EventFds) (threadnum loop : ℕ) (fd : Fd) : Option Registration :=
  if loop < threadnum ∧ wakeup.fd loop = fd then some ⟨EPOLLIN, wakeup.channel loop⟩ else none

theorem EventFds.entry_eq_none {wakeup : EventFds} {threadnum : ℕ} {fd : Fd}
    (hother : ¬ wakeup.Has threadnum fd) (loop : ℕ) : wakeup.entry threadnum loop fd = none :=
  if_neg fun hhas ↦ hother ⟨loop, hhas⟩

/-- A call of the server. -/
inductive Label
  /-- One whose system calls return, with what they return. -/
  | operation (label : IdleEviction.Label)
  /-- A call of `send_client` on a connection whose peer has reset it, where `::send` raises
  `SIGPIPE`. -/
  | sigpipe (conn : Conn)

section System

variable (wakeup : EventFds) (threadnum : ℕ) (timeout : ℤ)

/-- An operation of the server. The descriptor of a new connection is not open, and
`clientfd % threadnum` ends the program when there is no sub-loop, as `SIGPIPE` does. -/
def step (state : State) : Label → Option State
  | .operation (.newconnection fd this now) =>
    if threadnum = 0 ∨ wakeup.Has threadnum fd then none
    else IdleEviction.step threadnum timeout state (.newconnection fd this now)
  | .operation label => IdleEviction.step threadnum timeout state label
  | .sigpipe _ => none

/-- The server before the first connection. -/
structure Initial (state : State) : Prop where
  server : IdleEviction.Initial state
  registered : ∀ loop fd, (state.eps loop).interest fd = wakeup.entry threadnum loop fd

/-- The system, for a number of sub-loops and the time after which a connection is evicted. -/
def system : TransitionSystem State Label where
  initial := Initial wakeup threadnum
  step := step wakeup threadnum timeout

/-- The entry of a connection in the interest list of its loop. -/
def registration (connection : Connection) : Registration :=
  ⟨connection.clientchannel.event, connection.clientchannel.this⟩

/-- The objects that are alive are in the map and registered with their loop, on descriptors of
their own, and nothing else is registered anywhere but what was at the start. -/
structure Registered (state : State) : Prop where
  mapped : ∀ conn, state.Live conn → state.connections.get? conn.1 = some conn
  sound : ∀ conn, state.Live conn →
    Sound (state.eps (loopOf threadnum conn)) conn.1 (state.objects conn)
  foreign : ∀ conn, state.Live conn → ¬ wakeup.Has threadnum conn.1
  only : ∀ loop fd, (state.eps loop).interest fd ≠ wakeup.entry threadnum loop fd →
    ∃ conn, state.Live conn ∧ conn.1 = fd ∧ loopOf threadnum conn = loop

end System

section Steps

variable {wakeup : EventFds} {threadnum : ℕ} {timeout : ℤ} {state next : State}

/-- No two objects on a descriptor are alive. -/
theorem Registered.eq_of_fd (hregistered : Registered wakeup threadnum state) {conn other : Conn}
    (hconn : state.Live conn) (hother : state.Live other) (hfd : other.1 = conn.1) :
    other = conn := by
  have hget := hregistered.mapped other hother
  rw [hfd, hregistered.mapped conn hconn] at hget
  exact (Option.some.inj hget).symm

/-- An object is built, or one of its member functions has run. -/
theorem Registered.put (hregistered : Registered wakeup threadnum state) {conn : Conn}
    {connection : Connection} {ep : Epoll}
    (hlive : ∀ other, next.Live other ↔ other = conn ∨ state.Live other)
    (halone : ∀ other, state.Live other → other.1 = conn.1 → other = conn)
    (hforeign : ¬ wakeup.Has threadnum conn.1)
    (hself : next.connections.get? conn.1 = some conn)
    (hothers : ∀ fd, fd ≠ conn.1 → next.connections.get? fd = state.connections.get? fd)
    (hobjects : next.objects = Function.update state.objects conn connection)
    (heps : next.eps = Function.update state.eps (loopOf threadnum conn) ep)
    (hsound : Sound ep conn.1 connection)
    (hsame : SameElse conn.1 (state.eps (loopOf threadnum conn)) ep) :
    Registered wakeup threadnum next := by
  have helse : ∀ loop fd, fd ≠ conn.1 →
      (next.eps loop).interest fd = (state.eps loop).interest fd := by
    intro loop fd hfd
    rw [heps]
    by_cases hloop : loop = loopOf threadnum conn
    · rw [hloop, Function.update_self]
      exact hsame.interest fd hfd
    · rw [Function.update_of_ne hloop]
  have hfd : ∀ other, other ≠ conn → next.Live other → state.Live other ∧ other.1 ≠ conn.1 := by
    intro other hne hother
    have hold := ((hlive other).mp hother).resolve_left hne
    exact ⟨hold, fun heq ↦ hne (halone other hold heq)⟩
  refine ⟨fun other hother ↦ ?_, fun other hother ↦ ?_, fun other hother ↦ ?_,
    fun loop fd hentry ↦ ?_⟩
  · by_cases heq : other = conn
    · rw [heq]
      exact hself
    · obtain ⟨hold, hne⟩ := hfd other heq hother
      rw [hothers _ hne]
      exact hregistered.mapped other hold
  · by_cases heq : other = conn
    · subst heq
      rw [hobjects, heps, Function.update_self, Function.update_self]
      exact hsound
    · obtain ⟨hold, hne⟩ := hfd other heq hother
      have hbefore := hregistered.sound other hold
      rw [hobjects, Function.update_of_ne heq]
      exact { hbefore with registered := (helse _ _ hne).trans hbefore.registered }
  · rcases (hlive other).mp hother with rfl | hold
    · exact hforeign
    · exact hregistered.foreign other hold
  · by_cases heq : fd = conn.1
    · by_cases hloop : loop = loopOf threadnum conn
      · exact ⟨conn, (hlive conn).mpr (.inl rfl), heq.symm, hloop.symm⟩
      · rw [heps, Function.update_of_ne hloop] at hentry
        obtain ⟨other, hother, hfd, hown⟩ := hregistered.only loop fd hentry
        exact ⟨other, (hlive other).mpr (.inr hother), hfd, hown⟩
    · rw [helse loop fd heq] at hentry
      obtain ⟨other, hother, hfd, hown⟩ := hregistered.only loop fd hentry
      exact ⟨other, (hlive other).mpr (.inr hother), hfd, hown⟩

/-- A member function of an object has run and left it sound. -/
theorem Registered.ran (hregistered : Registered wakeup threadnum state) {conn : Conn}
    {connection : Connection} {ep : Epoll} (hlive : state.Live conn)
    (hsound : Sound ep conn.1 connection)
    (hsame : SameElse conn.1 (state.eps (loopOf threadnum conn)) ep) (history : List Activity) :
    Registered wakeup threadnum { state.ran threadnum conn connection ep with history } := by
  refine hregistered.put (fun other ↦ ?_) (fun _ hother ↦ hregistered.eq_of_fd hlive hother)
    (hregistered.foreign conn hlive) (hregistered.mapped conn hlive) (fun _ _ ↦ rfl) rfl rfl hsound
    hsame
  refine ⟨.inr, ?_⟩
  rintro (rfl | hother)
  · exact hlive
  · exact hother

/-- A descriptor on which no object is alive, and which is no `eventfd`, is registered nowhere. -/
theorem Registered.interest_eq_none (hregistered : Registered wakeup threadnum state) {fd : Fd}
    (hfree : ∀ earlier, earlier < state.opened fd → ¬ state.Live (fd, earlier))
    (hother : ¬ wakeup.Has threadnum fd) (loop : ℕ) : (state.eps loop).interest fd = none := by
  rw [← EventFds.entry_eq_none hother loop]
  by_contra hentry
  obtain ⟨⟨_, index⟩, hlive, rfl, -⟩ := hregistered.only loop fd hentry
  exact hfree index hlive.1 hlive

/-- `newconnection` builds an object on a descriptor on which none is alive. -/
theorem Registered.newconnection (hinv : Inv state)
    (hregistered : Registered wakeup threadnum state) {fd : Fd} (this : ℕ) (now : ℤ)
    (hfree : ∀ earlier, earlier < state.opened fd → ¬ state.Live (fd, earlier))
    (hother : ¬ wakeup.Has threadnum fd) :
    Registered wakeup threadnum { state.ran threadnum (fd, state.opened fd) (published this fd now)
        ((state.eps (loopOf threadnum (fd, state.opened fd))).register fd
          ⟨EPOLLET ||| EPOLLIN, this⟩) with
      connections := state.connections.insert fd (fd, state.opened fd)
      opened := Function.update state.opened fd (state.opened fd + 1)
      history := ⟨(fd, state.opened fd), now⟩ :: state.history } := by
  have hnone : ∀ other : Conn, state.Live other → other.1 ≠ fd := by
    rintro ⟨key, index⟩ hlive rfl
    exact hfree index hlive.1 hlive
  refine hregistered.put (fun other ↦ ?_) (fun other hother heq ↦ absurd heq (hnone other hother))
    hother (OrderedMap.get?_insert_self _ _ _)
    (fun other hother ↦ OrderedMap.get?_insert_of_ne _ hother _) rfl rfl ?_
    (EdgeTriggering.sameElse_register _ _ _)
  · obtain ⟨key, index⟩ := other
    have hfresh : state.deleted (fd, state.opened fd) = 0 :=
      hinv.unbuilt (fd, state.opened fd) le_rfl
    change index < Function.update state.opened fd (state.opened fd + 1) key ∧
      state.deleted (key, index) = 0 ↔ _
    by_cases hkey : key = fd
    · subst hkey
      rw [Function.update_self]
      constructor
      · rintro ⟨hlt, hzero⟩
        rcases Nat.lt_succ_iff_lt_or_eq.mp hlt with hold | rfl
        · exact .inr ⟨hold, hzero⟩
        · exact .inl rfl
      · rintro (heq | hlive)
        · cases heq
          exact ⟨Nat.lt_succ_self _, hfresh⟩
        · exact absurd rfl (hnone _ hlive)
    · rw [Function.update_of_ne hkey]
      exact ⟨.inr, fun hor ↦ hor.resolve_left fun heq ↦ hkey (congrArg Prod.fst heq)⟩
  · exact ⟨rfl, Function.update_self _ _ _, rfl, rfl, rfl, rfl, rfl, fun h ↦ absurd rfl h⟩

/-- An object is erased from the map and deleted, which closes its descriptor. -/
theorem Registered.remove (hregistered : Registered wakeup threadnum state) {conn : Conn}
    (hlive : state.Live conn)
    (hconnections : next.connections = state.connections.erase conn.1)
    (hobjects : ∀ other, other ≠ conn → next.objects other = state.objects other)
    (hopened : next.opened = state.opened)
    (hdeleted : next.deleted = Function.update state.deleted conn (state.deleted conn + 1))
    (hothers : ∀ loop fd, fd ≠ conn.1 →
      (next.eps loop).interest fd = (state.eps loop).interest fd)
    (hclosed : ∀ loop, (next.eps loop).interest conn.1 = none) :
    Registered wakeup threadnum next := by
  have hkept : ∀ other, next.Live other ↔ state.Live other ∧ other ≠ conn := by
    intro other
    rw [State.Live, hopened, hdeleted]
    by_cases heq : other = conn
    · subst heq
      simp
    · rw [Function.update_of_ne heq]
      exact (and_iff_left heq).symm
  have hfd : ∀ other, next.Live other → other.1 ≠ conn.1 := by
    intro other hother heq
    obtain ⟨hold, hne⟩ := (hkept other).mp hother
    exact hne (hregistered.eq_of_fd hlive hold heq)
  refine ⟨fun other hother ↦ ?_, fun other hother ↦ ?_,
    fun other hother ↦ hregistered.foreign other ((hkept other).mp hother).1,
    fun loop fd hentry ↦ ?_⟩
  · rw [hconnections, OrderedMap.get?_erase_of_ne _ (hfd other hother)]
    exact hregistered.mapped other ((hkept other).mp hother).1
  · obtain ⟨hold, hne⟩ := (hkept other).mp hother
    have hbefore := hregistered.sound other hold
    rw [hobjects other hne]
    exact { hbefore with registered := (hothers _ _ (hfd other hother)).trans hbefore.registered }
  · by_cases heq : fd = conn.1
    · rw [heq, hclosed loop,
        EventFds.entry_eq_none (hregistered.foreign conn hlive) loop] at hentry
      exact absurd rfl hentry
    · rw [hothers loop fd heq] at hentry
      obtain ⟨other, hother, rfl, hown⟩ := hregistered.only loop fd hentry
      exact ⟨other, (hkept other).mpr ⟨hother, fun hsame ↦ heq (by rw [hsame])⟩, rfl, hown⟩

/-- A call that closes its connection ends with the object deleted. -/
theorem Registered.closed (hregistered : Registered wakeup threadnum state) {conn : Conn}
    {final : Connection} {ep : Epoll} {events : List Event} (hlive : state.Live conn)
    (hfd : final.fd = conn.1)
    (hsame : SameElse conn.1 (state.eps (loopOf threadnum conn)) ep)
    (hevents : .closecallback ∈ events ∨ .errorcallback ∈ events) (history : List Activity) :
    Registered wakeup threadnum
      (closed { state.ran threadnum conn final ep with history } conn events) := by
  have hown : ((state.ran threadnum conn final ep).objects conn).fd = conn.1 := by
    rw [← hfd]
    exact congrArg Connection.fd (Function.update_self _ _ _)
  rw [IdleEviction.closed, if_pos hevents, closeconnection]
  refine hregistered.remove hlive (congrArg state.connections.erase hown)
    (fun other hne ↦ Function.update_of_ne hne _ _) rfl rfl (fun loop fd hne ↦ ?_) fun loop ↦ ?_
  · refine (Function.update_of_ne (hown.symm ▸ hne) _ _).trans ?_
    change (Function.update state.eps (loopOf threadnum conn) ep loop).interest fd = _
    by_cases hloop : loop = loopOf threadnum conn
    · rw [hloop, Function.update_self]
      exact hsame.interest fd hne
    · rw [Function.update_of_ne hloop]
  · refine Eq.trans ?_ (Function.update_self conn.1 none
      ((state.ran threadnum conn final ep).eps loop).interest)
    exact congrArg (fun fd ↦ (((state.ran threadnum conn final ep).eps loop).close fd).interest
      conn.1) hown

/-- What every eviction of an entry of the map keeps, evicting several of them keeps. -/
theorem evictAll_invariant {kept : State → Prop}
    (hevict : ∀ state it conn, kept state → state.connections.get? it = some conn →
      kept (evict state it conn)) (entries : List (Fd × Conn)) :
    ∀ {state : State}, kept state →
      (∀ entry ∈ entries, state.connections.get? entry.1 = some entry.2) →
      (entries.map Prod.fst).Nodup → kept (evictAll state entries) := by
  induction entries with
  | nil => exact fun hkept _ _ ↦ hkept
  | cons entry rest ih =>
    intro state hkept hget hkeys
    obtain ⟨hentry, hrest⟩ := List.forall_mem_cons.mp hget
    rw [List.map_cons, List.nodup_cons] at hkeys
    refine ih (hevict state _ _ hkept hentry) (fun other hother ↦ ?_) hkeys.2
    have hne : other.1 ≠ entry.1 := fun heq ↦ hkeys.1 (heq ▸ List.mem_map_of_mem hother)
    rw [connections_evict, OrderedMap.get?_erase_of_ne _ hne]
    exact hrest other hother

/-- An entry is evicted. -/
theorem Registered.evict (hinv : Inv state) (hregistered : Registered wakeup threadnum state)
    {it : Fd} {conn : Conn} (hget : state.connections.get? it = some conn) :
    Registered wakeup threadnum (evict state it conn) := by
  obtain ⟨rfl, hlive⟩ := hinv.mapped it conn hget
  have hown : ((state.assign conn (setcallbacks false (state.objects conn))).objects conn).fd =
      conn.1 := by
    refine (congrArg Connection.fd (Function.update_self _ _ _)).trans ?_
    exact (hinv.tracked conn hlive).fd
  refine hregistered.remove hlive rfl (fun other hne ↦ objects_evict_of_ne state _ hne) rfl rfl
    (fun loop fd hne ↦ Function.update_of_ne (hown.symm ▸ hne) _ _) fun loop ↦ ?_
  refine Eq.trans ?_ (Function.update_self conn.1 none (state.eps loop).interest)
  exact congrArg (fun fd ↦ ((state.eps loop).close fd).interest conn.1) hown

/-- An operation keeps the three places in agreement, on a new descriptor that is no `eventfd`. -/
theorem Registered.operation (hinv : Inv state) (hregistered : Registered wakeup threadnum state)
    {label : IdleEviction.Label}
    (hother : ∀ fd this now, label = .newconnection fd this now → ¬ wakeup.Has threadnum fd)
    (hstep : IdleEviction.step threadnum timeout state label = some next) :
    Registered wakeup threadnum next := by
  cases label with
  | newconnection fd this now =>
    have hforeign := hother fd this now rfl
    rw [IdleEviction.step] at hstep
    split_ifs at hstep with hfree
    have hunregistered := hregistered.interest_eq_none hfree hforeign
      (loopOf threadnum (fd, state.opened fd))
    simp only [new_of_unregistered this now hunregistered] at hstep
    cases hstep
    exact hregistered.newconnection hinv this now hfree hforeign
  | onmessage conn ambient results =>
    rw [IdleEviction.step] at hstep
    split_ifs at hstep with hlive
    split at hstep
    · rename_i final ep events hreturned
      cases hstep
      have hsound := hregistered.sound conn hlive
      have hold := hinv.tracked conn hlive
      obtain ⟨hfd, -, -⟩ := stamped_of_onmessage hreturned hold.set
      rcases onmessage_returned _ _ _ hreturned with ⟨-, rfl, hdrain⟩ | ⟨-, hremove, hevents, -⟩
      · obtain ⟨hdrained, hclose, herror⟩ := hsound.drain hdrain
        rw [IdleEviction.closed, if_neg (not_or.mpr ⟨hclose, herror⟩)]
        exact hregistered.ran hlive hdrained (.refl _ _) _
      · refine hregistered.closed hlive (hfd.trans hold.fd) (hsound.remove hremove) (.inl ?_) _
        rw [hevents, hsound.closecallback]
        exact List.mem_cons_of_mem _ List.mem_cons_self
    · cases hstep
  | closeClient conn failed =>
    rw [IdleEviction.step] at hstep
    split at hstep
    · rename_i hlive
      have hsound := hregistered.sound conn hlive
      split at hstep
      · cases hstep
      · rename_i clientchannel ep hremove
        have hsame := hsound.remove hremove
        have hfd := (hinv.tracked conn hlive).fd
        cases failed with
        | false =>
          cases hstep
          refine hregistered.closed hlive ?_ hsame (.inl ?_) state.history
          · exact hfd
          · simp [hsound.closecallback]
        | true =>
          cases hstep
          refine hregistered.closed hlive ?_ hsame (.inr ?_) state.history
          · exact hfd
          · simp [hsound.errorcallback]
    · cases hstep
  | sendInloop conn message =>
    rw [IdleEviction.step] at hstep
    split_ifs at hstep with hlive
    split at hstep
    · cases hstep
    · rename_i connection ep hsend
      cases hstep
      obtain ⟨hsound, hsame⟩ := (hregistered.sound conn hlive).sendInloop hsend
      exact hregistered.ran hlive hsound hsame state.history
  | sendClient conn writen =>
    rw [IdleEviction.step] at hstep
    split_ifs at hstep with hlive
    split at hstep
    · cases hstep
    · rename_i connection ep events hsend
      cases hstep
      obtain ⟨hsound, hsame, -⟩ := (hregistered.sound conn hlive).sendClient hsend
      exact hregistered.ran hlive hsound hsame state.history
  | handleTimer now =>
    rw [IdleEviction.step, handleTimer_eq] at hstep
    cases hstep
    have hboth := @evictAll_invariant
      (fun reached ↦ Inv reached ∧ Registered wakeup threadnum reached)
      (fun _ _ _ hkept hget ↦ ⟨hkept.1.evict hget, hkept.2.evict hkept.1 hget⟩)
      (state.connections.entries.filter (timedOut timeout now state)) state ⟨hinv, hregistered⟩
      (fun entry hentry ↦ OrderedMap.get?_of_mem (List.mem_of_mem_filter hentry))
      (state.connections.nodup_keys.sublist (List.filter_sublist.map _))
    exact hboth.2

/-- What a step does: it is an operation, and when it builds an object the descriptor is no
`eventfd` and there is a sub-loop. -/
theorem operation_of_step {label : Label}
    (hstep : step wakeup threadnum timeout state label = some next) :
    ∃ operation, label = .operation operation ∧
      IdleEviction.step threadnum timeout state operation = some next ∧
      ∀ fd this now, operation = .newconnection fd this now →
        0 < threadnum ∧ ¬ wakeup.Has threadnum fd := by
  cases label with
  | sigpipe conn => cases hstep
  | operation operation =>
    refine ⟨operation, rfl, ?_⟩
    cases operation with
    | newconnection fd this now =>
      rw [step] at hstep
      split_ifs at hstep with hopen
      obtain ⟨hthreadnum, hother⟩ := not_or.mp hopen
      refine ⟨hstep, ?_⟩
      rintro _ _ _ heq
      cases heq
      exact ⟨Nat.pos_of_ne_zero hthreadnum, hother⟩
    | _ => exact ⟨hstep, nofun⟩

/-- With the right flag no call of `onmessage` ends the program in an `epoll_ctl`. -/
theorem onmessage_not_exit (ambient : Ambient) (results : List ReadResult) (ep : Epoll) :
    ∀ {connection : Connection}, connection.clientchannel.FlagMirrors ep →
      ∀ failure, connection.onmessage ambient results ep ≠ .error (.exit failure) := by
  induction results with
  | nil =>
    intro connection _ failure hexit
    cases hexit
  | cons result rest ih =>
    intro connection hflag failure hexit
    cases result with
    | data chunk => exact ih (by exact hflag) failure hexit
    | eof =>
      rw [Connection.onmessage, Channel.remove_of_flagMirrors hflag] at hexit
      cases hexit
    | failed errno =>
      rw [Connection.onmessage] at hexit
      split_ifs at hexit
      · exact ih hflag failure hexit
      · split at hexit <;> cases hexit
      · exact ih hflag failure hexit

/-! ### Runs -/

/-- A server without a connection is in agreement. -/
theorem Registered.initial (hinitial : Initial wakeup threadnum state) :
    Registered wakeup threadnum state := by
  have hnone : ∀ conn, ¬ state.Live conn := fun conn hlive ↦
    absurd hlive.1 (by simp [hinitial.server.opened])
  exact ⟨fun conn hlive ↦ absurd hlive (hnone conn), fun conn hlive ↦ absurd hlive (hnone conn),
    fun conn hlive ↦ absurd hlive (hnone conn),
    fun loop fd hentry ↦ absurd (hinitial.registered loop fd) hentry⟩

theorem registered_of_reachable (hreach : (system wakeup threadnum timeout).Reachable state) :
    Inv state ∧ Registered wakeup threadnum state := by
  refine hreach.invariant (fun reached ↦ Inv reached ∧ Registered wakeup threadnum reached) ?_ ?_
  · intro start hinitial
    have hserver : (IdleEviction.system threadnum timeout).Reachable start :=
      .initial hinitial.server
    exact ⟨inv_of_reachable hserver, .initial hinitial⟩
  · rintro before label after ⟨hinv, hregistered⟩ - hstep
    obtain ⟨operation, -, hoperation, hopen⟩ := operation_of_step hstep
    exact ⟨hinv.step hoperation, hregistered.operation hinv
      (fun fd this now heq ↦ (hopen fd this now heq).2) hoperation⟩

/-- In every state of a run, the interest list of each loop holds its `eventfd` and exactly the
connections of the map that belong to the loop, each with the events and the channel of its object;
and the channels of these have their flag set. -/
theorem registered_exactly (hreach : (system wakeup threadnum timeout).Reachable state) (loop : ℕ)
    (fd : Fd) :
    ((state.eps loop).interest fd =
      if loop < threadnum ∧ wakeup.fd loop = fd then some ⟨EPOLLIN, wakeup.channel loop⟩
      else if loop = fd % threadnum then
        (state.connections.get? fd).map fun conn ↦ registration (state.objects conn)
      else none) ∧
    ∀ conn ∈ state.connections.get? fd, (state.objects conn).clientchannel.fd = fd ∧
      (state.objects conn).clientchannel.inepoll = true := by
  obtain ⟨hinv, hregistered⟩ := registered_of_reachable hreach
  have hentry : (∀ conn, state.Live conn → conn.1 = fd → loopOf threadnum conn ≠ loop) →
      (state.eps loop).interest fd = wakeup.entry threadnum loop fd := by
    intro hnone
    by_contra hne
    obtain ⟨conn, hlive, hfd, hown⟩ := hregistered.only loop fd hne
    exact hnone conn hlive hfd hown
  refine ⟨?_, fun conn hget ↦ ?_⟩
  · split_ifs with hwakeup hloop
    · rw [hentry fun conn hlive hfd _ ↦ ?_, EventFds.entry, if_pos hwakeup]
      subst hfd
      exact hregistered.foreign conn hlive ⟨loop, hwakeup⟩
    · cases hget : state.connections.get? fd with
      | none =>
        rw [hentry fun conn hlive hfd _ ↦ ?_, EventFds.entry, if_neg hwakeup]
        · rfl
        · rw [← hfd, hregistered.mapped conn hlive] at hget
          cases hget
      | some conn =>
        obtain ⟨rfl, hlive⟩ := hinv.mapped fd conn hget
        rw [hloop]
        exact (hregistered.sound conn hlive).registered
    · rw [hentry fun conn _ hfd hown ↦ ?_, EventFds.entry, if_neg hwakeup]
      subst hfd
      exact hloop hown.symm
  · obtain ⟨rfl, hlive⟩ := hinv.mapped fd conn hget
    have hsound := hregistered.sound conn hlive
    exact ⟨hsound.channel, hsound.inepoll⟩

/-- The epoll instance of a sub-loop whose `eventfd` is registered. -/
def wakeupEpoll (wakeup : EventFds) (threadnum loop : ℕ) : Epoll :=
  { Epoll.epollCreate with interest := wakeup.entry threadnum loop }

/-- A server before its first connection. -/
def start (wakeup : EventFds) (threadnum : ℕ) : State :=
  ⟨.empty, fun _ ↦ .constructed 0 0 0, fun _ ↦ 0, fun _ ↦ 0, wakeupEpoll wakeup threadnum, []⟩

theorem start_initial (wakeup : EventFds) (threadnum : ℕ) :
    Initial wakeup threadnum (start wakeup threadnum) :=
  ⟨⟨rfl, rfl, rfl, rfl⟩, fun _ _ ↦ rfl⟩

/-- The `eventfd` of the first sub-loop is `100`, that of the second `101`, and so on. -/
def hundreds : EventFds := ⟨fun loop ↦ 100 + loop, fun loop ↦ loop⟩

/-- Of two connections one has output and the other has closed. -/
theorem registered_exactly_closed :
    ∃ state : State, (system hundreds 2 20).Reachable state ∧
      (state.eps 1).interest 5 = some ⟨EPOLLET ||| EPOLLIN ||| EPOLLOUT, 1⟩ ∧
      (state.eps 0).interest 6 = none ∧ (state.eps 0).interest 100 = some ⟨EPOLLIN, 0⟩ := by
  obtain ⟨state, hreach, hopen, hclosed⟩ : ∃ state : State,
      (system hundreds 2 20).Reachable state ∧
      (state.connections.get? 5).map (fun conn ↦ registration (state.objects conn)) =
        some ⟨EPOLLET ||| EPOLLIN ||| EPOLLOUT, 1⟩ ∧ state.connections.get? 6 = none :=
    ⟨_, .of_run (.initial (start_initial hundreds 2)) [.operation (.newconnection 5 1 0),
      .operation (.newconnection 6 2 0), .operation (.sendInloop (5, 0) [97]),
      .operation (.closeClient (6, 0) false)] rfl, rfl, rfl⟩
  refine ⟨state, hreach, ?_, ?_, ?_⟩
  · rw [(registered_exactly hreach 1 5).1, if_neg (by decide), if_pos rfl, hopen]
  · rw [(registered_exactly hreach 0 6).1, if_neg (by decide), if_pos rfl, hclosed]
    rfl
  · rw [(registered_exactly hreach 0 100).1, if_pos (by decide)]
    rfl

/-- With a sub-loop, a connection can be built on every descriptor that is not open. -/
theorem Registered.isSome_newconnection (hregistered : Registered wakeup threadnum state)
    (hthreadnum : 0 < threadnum) {fd : Fd} (this : ℕ) (now : ℤ)
    (hfree : ∀ earlier, earlier < state.opened fd → ¬ state.Live (fd, earlier))
    (hother : ¬ wakeup.Has threadnum fd) :
    (step wakeup threadnum timeout state
      (.operation (.newconnection fd this now))).isSome = true := by
  have hnew := new_of_unregistered this now
    (hregistered.interest_eq_none hfree hother (loopOf threadnum (fd, state.opened fd)))
  rw [step, if_neg (not_or.mpr ⟨hthreadnum.ne', hother⟩), IdleEviction.step, if_pos hfree]
  dsimp only
  rw [hnew]
  rfl

/-- What the kernel and the callers of the operations see to: the descriptor of a new connection is
not open, and the object of a call is alive. -/
def Callable (wakeup : EventFds) (threadnum : ℕ) (state : State) : Label → Prop
  | .operation (.newconnection fd _ _) =>
    (∀ earlier, earlier < state.opened fd → ¬ state.Live (fd, earlier)) ∧ ¬ wakeup.Has threadnum fd
  | .operation (.onmessage conn _ _) | .operation (.closeClient conn _)
  | .operation (.sendInloop conn _) | .operation (.sendClient conn _) | .sigpipe conn =>
    state.Live conn
  | .operation (.handleTimer _) => True

/-- Only an accept is more than the operation of `IdleEviction`. -/
theorem step_operation {operation : IdleEviction.Label}
    (hother : ∀ fd this now, operation ≠ .newconnection fd this now) :
    step wakeup threadnum timeout state (.operation operation) =
      IdleEviction.step threadnum timeout state operation := by
  cases operation with
  | newconnection => exact absurd rfl (hother _ _ _)
  | _ => rfl

/-- With a sub-loop, in every state of a run, every operation returns, since no `epoll_ctl` fails:
but for a `send_client` whose `::send` raises `SIGPIPE`, and `onmessage`, which may go on reading or
find a malformed header. -/
theorem never_exits (hthreadnum : 0 < threadnum)
    (hreach : (system wakeup threadnum timeout).Reachable state) {label : Label}
    (hcallable : Callable wakeup threadnum state label) :
    (step wakeup threadnum timeout state label).isSome = true ∨
      (∃ conn, label = .sigpipe conn) ∨
      ∃ conn ambient results, label = .operation (.onmessage conn ambient results) ∧
        ((∃ connection, (state.objects conn).onmessage ambient results
            (state.eps (loopOf threadnum conn)) = .ok (.reading connection)) ∨
          ∃ fault, (state.objects conn).onmessage ambient results
            (state.eps (loopOf threadnum conn)) = .error (.fault fault)) := by
  obtain ⟨-, hregistered⟩ := registered_of_reachable hreach
  cases label with
  | sigpipe conn => exact .inr (.inl ⟨conn, rfl⟩)
  | operation operation =>
    cases operation with
    | newconnection fd this now =>
      obtain ⟨hfree, hother⟩ := hcallable
      exact .inl (hregistered.isSome_newconnection hthreadnum this now hfree hother)
    | onmessage conn ambient results =>
      have hlive : state.Live conn := hcallable
      have hflag := (hregistered.sound conn hlive).flag
      cases hmessage : (state.objects conn).onmessage ambient results
          (state.eps (loopOf threadnum conn)) with
      | error crash =>
        cases crash with
        | fault fault => exact .inr (.inr ⟨conn, ambient, results, rfl, .inr ⟨fault, hmessage⟩⟩)
        | exit failure => exact absurd hmessage (onmessage_not_exit ambient results _ hflag failure)
      | ok outcome =>
        cases outcome with
        | reading connection =>
          exact .inr (.inr ⟨conn, ambient, results, rfl, .inl ⟨connection, hmessage⟩⟩)
        | returned final ep events =>
          rw [step_operation (by simp), IdleEviction.step, if_pos hlive, hmessage]
          exact .inl rfl
    | closeClient conn failed =>
      have hlive : state.Live conn := hcallable
      rw [step_operation (by simp), IdleEviction.step, if_pos hlive,
        Channel.remove_of_flagMirrors (hregistered.sound conn hlive).flag]
      cases failed <;> exact .inl rfl
    | sendInloop conn message =>
      have hlive : state.Live conn := hcallable
      rw [step_operation (by simp), IdleEviction.step, if_pos hlive,
        sendInloop_of_flagMirrors message (hregistered.sound conn hlive).flag]
      exact .inl rfl
    | sendClient conn writen =>
      have hlive : state.Live conn := hcallable
      rw [step_operation (by simp), IdleEviction.step, if_pos hlive,
        sendClient_of_flagMirrors writen (hregistered.sound conn hlive).flag]
      split_ifs <;> exact .inl rfl
    | handleTimer now =>
      rw [step_operation (by simp), IdleEviction.step, handleTimer_eq]
      exact .inl rfl

/-- A descriptor that is used again after a close. -/
theorem never_exits_again : ∃ state : State, (system hundreds 2 20).Reachable state ∧
    (step hundreds 2 20 state (.operation (.newconnection 5 2 1))).isSome = true := by
  obtain ⟨state, hreach, hopened, hdeleted⟩ : ∃ state : State,
      (system hundreds 2 20).Reachable state ∧ state.opened 5 = 1 ∧ state.deleted (5, 0) = 1 :=
    ⟨_, .of_run (.initial (start_initial hundreds 2)) [.operation (.newconnection 5 1 0),
      .operation (.closeClient (5, 0) false)] rfl, rfl, rfl⟩
  have hcallable : Callable hundreds 2 state (.operation (.newconnection 5 2 1)) := by
    refine ⟨?_, by decide⟩
    rintro earlier hearlier ⟨-, hzero⟩
    obtain rfl : earlier = 0 := by omega
    rw [hdeleted] at hzero
    cases hzero
  refine ⟨state, hreach, (never_exits (by decide) hreach hcallable).resolve_right ?_⟩
  rintro (⟨conn, heq⟩ | ⟨conn, ambient, results, heq, -⟩) <;> cases heq

end Steps

end Reactor.InterestList
