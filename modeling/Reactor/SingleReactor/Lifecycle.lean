import Reactor.SingleReactor.Connection
import Reactor.Library.OrderedMap

/-!
# Life cycle of single-reactor connections

The server with one thread: `EventLoop::run` handles the batches `Epoll::loop` returns, the channel
of the listening socket accepts, and the handlers of a connection may destroy it, which deletes its
channel and closes its descriptor in the middle of the batch. `accept4` may then return the same
descriptor again, in the same batch.

A `Connection` and its channel share an address, and addresses are not used twice; the channel of
the listening socket has the address `0`. `destroyed` counts how often an object was destroyed. A
handler is one step, with what the kernel returns to it (`Kernel`).

`Inv` ties the three structures keyed by descriptors together: the map `connections`, the live
objects and the interest set of the epoll instance. `lifecycle` reads off it that they have the same
descriptors, that no entry is overwritten, and that no channel of a batch is dangling.
-/

set_option autoImplicit false
set_option relaxedAutoImplicit false

namespace Reactor.SingleReactor.Lifecycle

open Library

structure Server where
  ep : Epoll
  serverchannel : Channel
  /-- The live `Connection` objects, by their addresses. -/
  objects : ℕ → Option Connection
  connections : OrderedMap Fd ℕ
  /-- The open descriptors. -/
  opened : Fd → Bool
  /-- The channels of the batch that have not been handled. -/
  batch : List ℕ
  /-- The number of `Connection` objects built so far. -/
  built : ℕ
  destroyed : ℕ → ℕ

/-- What the kernel returns to a handler: the result of `accept4`, those of `read`, and that of
`::send`; and the stale bytes `getmessage` sees. -/
structure Kernel where
  accepted : Option Fd
  results : List ReadResult
  stale : ℕ → Stale
  writen : ℤ

inductive Label
  | epollWait (reported : List (Fd × EventMask))
  | handleevent (kernel : Kernel)

namespace Server

/-- `~Connection`: the channel is deleted and the descriptor closed. -/
def destroy (server : Server) (address : ℕ) : Server :=
  let counted :=
    { server with
      destroyed := Function.update server.destroyed address (server.destroyed address + 1) }
  match server.objects address with
  | none => counted
  | some connection =>
    { counted with
      objects := Function.update server.objects address none
      ep := server.ep.close connection.fd
      opened := Function.update server.opened connection.fd false }

/-- `connections.erase(fd)`. -/
def erase (server : Server) (fd : Fd) : Server :=
  match server.connections.get? fd with
  | none => server
  | some address => { server with connections := server.connections.erase fd }.destroy address

/-- `connections[clientfd] = std::move(connection)`, which destroys what was there. -/
def assign (server : Server) (clientfd : Fd) (address : ℕ) : Server :=
  let moved :=
    match server.connections.get? clientfd with
    | none => server
    | some old => server.destroy old
  { moved with connections := moved.connections.insert clientfd address }

def newconnection (server : Server) (clientfd : Fd) : Option Server :=
  match Connection.new (server.built + 1) clientfd server.ep with
  | .error _ => none
  | .ok (connection, ep) =>
    some (assign { server with
      ep
      objects := Function.update server.objects (server.built + 1) (some connection)
      built := server.built + 1 } clientfd (server.built + 1))

/-- `accept4` returns a descriptor that was not open. -/
def accept (server : Server) (clientfd : Fd) : Option Server :=
  if server.opened clientfd then none
  else some { server with opened := Function.update server.opened clientfd true }

def setrevents (server : Server) (address : ℕ) (ev : EventMask) : Server :=
  if address = 0 then { server with serverchannel := server.serverchannel.setrevents ev }
  else
    { server with
      objects := Function.update server.objects address
        ((server.objects address).map fun connection ↦
          { connection with clientchannel := connection.clientchannel.setrevents ev }) }

/-- One entry of the array `epoll_wait` filled. -/
def report (server : Server) (reported : Fd × EventMask) : Server :=
  match server.ep.interest reported.1 with
  | none => server
  | some registration =>
    { server.setrevents registration.channel reported.2 with
      batch := server.batch ++ [registration.channel] }

/-- `handleevent` of the listening channel. Only its read callback is set. -/
def handleServer (server : Server) (kernel : Kernel) : Option Server :=
  match Channel.handleevent server.serverchannel.revent with
  | .read =>
    match kernel.accepted with
    | none => some server
    | some clientfd => (server.accept clientfd).bind fun next ↦ next.newconnection clientfd
  | .close | .write | .error => none

/-- `handleevent` of the channel of a connection; the close and the error callback erase it. -/
def handleClient (server : Server) (kernel : Kernel) (address : ℕ) (connection : Connection) :
    Option Server :=
  match Channel.handleevent connection.clientchannel.revent with
  | .close | .error => some (server.erase connection.fd)
  | .read =>
    match connection.onmessage kernel.stale kernel.results with
    | .error _ | .ok (.reading _) => none
    | .ok (.drained next _) =>
      some { server with objects := Function.update server.objects address (some next) }
    | .ok (.closed next) =>
      some (erase { server with objects := Function.update server.objects address (some next) }
        next.fd)
  | .write =>
    match connection.setwritecallback kernel.writen server.ep with
    | .error _ => none
    | .ok (next, ep, _) =>
      some { server with ep, objects := Function.update server.objects address (some next) }

end Server

def step (server : Server) : Label → Option Server
  | .epollWait reported =>
    if server.batch = [] ∧ (reported.map Prod.fst).Nodup ∧
        ∀ entry ∈ reported, (server.ep.interest entry.1).isSome = true then
      some (reported.foldl Server.report server)
    else none
  | .handleevent kernel =>
    match server.batch with
    | [] => none
    | address :: rest =>
      let next := { server with batch := rest }
      if address = 0 then next.handleServer kernel
      else
        match server.objects address with
        | none => none
        | some connection => next.handleClient kernel address connection

/-- The server after its constructors: the listening socket is open and registered. -/
structure Initial (listenfd : Fd) (server : Server) : Prop where
  interest : server.ep.interest = Function.update (fun _ ↦ none) listenfd (some ⟨EPOLLIN, 0⟩)
  objects : server.objects = fun _ ↦ none
  connections : server.connections = .empty
  opened : server.opened listenfd = true
  batch : server.batch = []
  destroyed : server.destroyed = fun _ ↦ 0

/-- The server, for the descriptor of its listening socket. -/
def system (listenfd : Fd) : TransitionSystem Server Label where
  initial := Initial listenfd
  step := step

/-! ### What the life cycle keeps -/

/-- The descriptor of the live object at an address. -/
def fdOf (objects : ℕ → Option Connection) (address : ℕ) : Option Fd :=
  (objects address).map Connection.fd

theorem fdOf_eq_some_iff {objects : ℕ → Option Connection} {address : ℕ} {fd : Fd} :
    fdOf objects address = some fd ↔
      ∃ connection, objects address = some connection ∧ connection.fd = fd :=
  Option.map_eq_some_iff

theorem fdOf_update_of_ne {objects : ℕ → Option Connection} {address other : ℕ}
    (hother : other ≠ address) (object : Option Connection) :
    fdOf (Function.update objects address object) other = fdOf objects other := by
  rw [fdOf, Function.update_of_ne hother, fdOf]

/-- Changing an object but for its descriptor. -/
theorem fdOf_update {objects : ℕ → Option Connection} {address : ℕ} {connection next : Connection}
    (hobject : objects address = some connection) (hfd : next.fd = connection.fd) :
    fdOf (Function.update objects address (some next)) = fdOf objects := by
  funext other
  by_cases hother : other = address
  · subst hother
    simp [fdOf, hobject, hfd]
  · exact fdOf_update_of_ne hother _

/-- A live object is stored under its descriptor, which is open and registered with its channel. -/
structure Linked (listenfd : Fd) (server : Server) (address : ℕ) (connection : Connection) :
    Prop where
  stored : server.connections.get? connection.fd = some address
  registered : server.ep.interest connection.fd = some ⟨connection.clientchannel.event, address⟩
  channel : connection.clientchannel.fd = connection.fd
  this : connection.clientchannel.this = address
  inepoll : connection.clientchannel.inepoll = true
  opened : server.opened connection.fd = true
  client : connection.fd ≠ listenfd
  positive : 0 < address
  built : address ≤ server.built
  undestroyed : server.destroyed address = 0

/-- What holds in every state of every run. -/
structure Inv (listenfd : Fd) (server : Server) : Prop where
  linked : ∀ {address connection}, server.objects address = some connection →
    Linked listenfd server address connection
  stored : ∀ {fd address}, server.connections.get? fd = some address →
    fdOf server.objects address = some fd
  owned : ∀ {fd registration}, server.ep.interest fd = some registration →
    fd = listenfd ∧ registration.channel = 0 ∨ fdOf server.objects registration.channel = some fd
  listening : server.opened listenfd = true
  once : ∀ address, server.destroyed address ≤ 1
  unbuilt : ∀ address, server.built < address → server.destroyed address = 0
  nodup : server.batch.Nodup
  live : ∀ address ∈ server.batch, address = 0 ∨ (fdOf server.objects address).isSome = true

variable {listenfd : Fd} {server : Server}

/-- What is about other descriptors and objects does not matter. -/
theorem Linked.frame {next : Server} {address : ℕ} {connection : Connection}
    (hlinked : Linked listenfd server address connection)
    (hstored : next.connections.get? connection.fd = server.connections.get? connection.fd)
    (hinterest : next.ep.interest connection.fd = server.ep.interest connection.fd)
    (hopened : next.opened connection.fd = server.opened connection.fd)
    (hbuilt : server.built ≤ next.built)
    (hdestroyed : next.destroyed address = server.destroyed address) :
    Linked listenfd next address connection where
  stored := hstored.trans hlinked.stored
  registered := hinterest.trans hlinked.registered
  channel := hlinked.channel
  this := hlinked.this
  inepoll := hlinked.inepoll
  opened := hopened.trans hlinked.opened
  client := hlinked.client
  positive := hlinked.positive
  built := hlinked.built.trans hbuilt
  undestroyed := hdestroyed.trans hlinked.undestroyed

/-- Two live objects do not share a descriptor. -/
theorem Inv.eq_of_fd (hinv : Inv listenfd server) {first second : ℕ} {one other : Connection}
    (hone : server.objects first = some one) (hother : server.objects second = some other)
    (hfd : one.fd = other.fd) : first = second := by
  have hfirst := (hinv.linked hone).stored
  rw [hfd, (hinv.linked hother).stored] at hfirst
  exact (Option.some.inj hfirst).symm

/-- The descriptor of a live object is open. -/
theorem Inv.opened_of_fdOf (hinv : Inv listenfd server) {address : ℕ} {fd : Fd}
    (hfd : fdOf server.objects address = some fd) : server.opened fd = true := by
  obtain ⟨connection, hobject, rfl⟩ := fdOf_eq_some_iff.mp hfd
  exact (hinv.linked hobject).opened

/-- A descriptor that is not open is under no key and not registered. -/
theorem Inv.free (hinv : Inv listenfd server) {fd : Fd} (hclosed : server.opened fd = false) :
    server.connections.get? fd = none ∧ server.ep.interest fd = none := by
  have hopen : ¬ server.opened fd = true := by simp [hclosed]
  constructor
  · refine Option.eq_none_iff_forall_ne_some.mpr fun address hstored ↦ ?_
    exact hopen (hinv.opened_of_fdOf (hinv.stored hstored))
  · refine Option.eq_none_iff_forall_ne_some.mpr fun registration hregistered ↦ ?_
    rcases hinv.owned hregistered with ⟨rfl, -⟩ | hobject
    · exact hopen hinv.listening
    · exact hopen (hinv.opened_of_fdOf hobject)

/-- The channel of a live object has the right flag. -/
theorem Linked.flagMirrors {address : ℕ} {connection : Connection}
    (hlinked : Linked listenfd server address connection) :
    connection.clientchannel.FlagMirrors server.ep := by
  rw [Channel.FlagMirrors, hlinked.inepoll, hlinked.channel, hlinked.registered]
  rfl

/-! ### Changing, destroying and building an object -/

/-- An object may change, but for its descriptor, its address and its flag, when the instance is
told which events its channel wants. -/
theorem Inv.replace (hinv : Inv listenfd server) {address : ℕ} {connection next : Connection}
    {ep : Epoll} {event revent : EventMask} (hobject : server.objects address = some connection)
    (hfd : next.fd = connection.fd)
    (hchannel : next.clientchannel = { connection.clientchannel with event, revent })
    (hep : ep.interest =
      Function.update server.ep.interest connection.fd (some ⟨event, address⟩)) :
    Inv listenfd
      { server with ep, objects := Function.update server.objects address (some next) } := by
  have hlinked := hinv.linked hobject
  have hfds := fdOf_update hobject hfd
  refine ⟨?_, ?_, ?_, hinv.listening, hinv.once, hinv.unbuilt, hinv.nodup, ?_⟩
  · intro other found hfound
    dsimp only at hfound
    by_cases hother : other = address
    · subst hother
      rw [Function.update_self] at hfound
      cases hfound
      refine ⟨?_, ?_, ?_, ?_, ?_, ?_, ?_, hlinked.positive, hlinked.built, hlinked.undestroyed⟩
      · rw [hfd]; exact hlinked.stored
      · rw [hep, hfd, Function.update_self, hchannel]
      · rw [hchannel, hfd]; exact hlinked.channel
      · rw [hchannel]; exact hlinked.this
      · rw [hchannel]; exact hlinked.inepoll
      · rw [hfd]; exact hlinked.opened
      · rw [hfd]; exact hlinked.client
    · rw [Function.update_of_ne hother] at hfound
      have hne : found.fd ≠ connection.fd := fun h ↦ hother (hinv.eq_of_fd hfound hobject h)
      refine (hinv.linked hfound).frame rfl ?_ rfl le_rfl rfl
      rw [hep, Function.update_of_ne hne]
  · intro fd stored hstored
    rw [hfds]
    exact hinv.stored hstored
  · intro fd registration hregistered
    dsimp only at hregistered ⊢
    rw [hfds]
    rw [hep] at hregistered
    by_cases hother : fd = connection.fd
    · subst hother
      rw [Function.update_self] at hregistered
      cases hregistered
      exact .inr (fdOf_eq_some_iff.mpr ⟨connection, hobject, rfl⟩)
    · rw [Function.update_of_ne hother] at hregistered
      exact hinv.owned hregistered
  · rw [hfds]
    exact hinv.live

/-- The erased connection is destroyed. -/
theorem erase_eq (hinv : Inv listenfd server) {address : ℕ} {connection : Connection}
    (hobject : server.objects address = some connection) :
    server.erase connection.fd =
      { server with
        connections := server.connections.erase connection.fd
        objects := Function.update server.objects address none
        ep := server.ep.close connection.fd
        opened := Function.update server.opened connection.fd false
        destroyed :=
          Function.update server.destroyed address (server.destroyed address + 1) } := by
  simp only [Server.erase, (hinv.linked hobject).stored, Server.destroy, hobject]

/-- A connection may be erased when its channel is not in the batch. -/
theorem Inv.erase (hinv : Inv listenfd server) {address : ℕ} {connection : Connection}
    (hobject : server.objects address = some connection) (hbatch : address ∉ server.batch) :
    Inv listenfd (server.erase connection.fd) := by
  have hlinked := hinv.linked hobject
  have hself : ∀ {fd}, fdOf server.objects address = some fd → fd = connection.fd := by
    intro fd hself
    obtain ⟨found, hfound, rfl⟩ := fdOf_eq_some_iff.mp hself
    rw [hobject] at hfound
    cases hfound
    rfl
  rw [erase_eq hinv hobject]
  refine ⟨?_, ?_, ?_, ?_, ?_, ?_, hinv.nodup, ?_⟩
  · intro other found hfound
    dsimp only at hfound
    have hother : other ≠ address := by
      rintro rfl
      rw [Function.update_self] at hfound
      cases hfound
    rw [Function.update_of_ne hother] at hfound
    have hne : found.fd ≠ connection.fd := fun h ↦ hother (hinv.eq_of_fd hfound hobject h)
    exact (hinv.linked hfound).frame (OrderedMap.get?_erase_of_ne _ hne)
      (Function.update_of_ne hne _ _) (Function.update_of_ne hne _ _) le_rfl
      (Function.update_of_ne hother _ _)
  · intro fd stored hstored
    dsimp only at hstored ⊢
    rw [OrderedMap.get?_erase] at hstored
    split_ifs at hstored with hkey
    have hfd := hinv.stored hstored
    have hother : stored ≠ address := by
      rintro rfl
      exact hkey (hself hfd)
    rw [fdOf_update_of_ne hother]
    exact hfd
  · intro fd registration hregistered
    dsimp only [Epoll.close] at hregistered ⊢
    by_cases hkey : fd = connection.fd
    · rw [hkey, Function.update_self] at hregistered
      cases hregistered
    · rw [Function.update_of_ne hkey] at hregistered
      rcases hinv.owned hregistered with hserver | howner
      · exact .inl hserver
      · have hother : registration.channel ≠ address := by
          intro hchannel
          rw [hchannel] at howner
          exact hkey (hself howner)
        rw [fdOf_update_of_ne hother]
        exact .inr howner
  · exact (Function.update_of_ne hlinked.client.symm _ _).trans hinv.listening
  · intro other
    dsimp only
    by_cases hother : other = address
    · simp [hother, hlinked.undestroyed]
    · rw [Function.update_of_ne hother]
      exact hinv.once other
  · intro other hother
    have hne : other ≠ address := (lt_of_le_of_lt hlinked.built hother).ne'
    exact (Function.update_of_ne hne _ _).trans (hinv.unbuilt other hother)
  · intro other hother
    dsimp only
    have hne : other ≠ address := by
      rintro rfl
      exact hbatch hother
    rw [fdOf_update_of_ne hne]
    exact hinv.live other hother

/-- On a descriptor under no key and not registered, a new connection is built, added to the
instance and stored, and nothing is destroyed. -/
theorem newconnection_eq {fd : Fd} (hstored : server.connections.get? fd = none)
    (hinterest : server.ep.interest fd = none) :
    server.newconnection fd =
      some { server with
        ep := server.ep.register fd ⟨EPOLLET ||| EPOLLIN, server.built + 1⟩
        objects := Function.update server.objects (server.built + 1) (some
          ⟨fd, ⟨server.built + 1, fd, true, EPOLLET ||| EPOLLIN, 0⟩, ⟨[]⟩, ⟨[]⟩⟩)
        connections := server.connections.insert fd (server.built + 1)
        built := server.built + 1 } := by
  simp only [Server.newconnection, Connection.new, Channel.enabreading_useET_new _ hinterest,
    Server.assign, hstored]

/-- A connection on a descriptor that was not open may be added. -/
theorem Inv.newconnection (hinv : Inv listenfd server) {fd : Fd} {accepted : Server}
    (haccept : server.accept fd = some accepted) :
    accepted.connections.get? fd = none ∧ accepted.ep.interest fd = none ∧
      ∃ next, accepted.newconnection fd = some next ∧ next.destroyed = server.destroyed ∧
        Inv listenfd next := by
  rw [Server.accept] at haccept
  split_ifs at haccept with hopened
  cases haccept
  have hclosed : server.opened fd = false := Bool.eq_false_of_not_eq_true hopened
  obtain ⟨hstored, hinterest⟩ := hinv.free hclosed
  refine ⟨hstored, hinterest, _, newconnection_eq hstored hinterest, rfl, ?_⟩
  have hunused : server.objects (server.built + 1) = none := by
    refine Option.eq_none_iff_forall_ne_some.mpr fun connection hobject ↦ ?_
    have hbuilt := (hinv.linked hobject).built
    omega
  have hfd : ∀ {address} {kept : Fd}, fdOf server.objects address = some kept →
      address ≠ server.built + 1 := by
    rintro address kept hkept rfl
    rw [fdOf, hunused] at hkept
    cases hkept
  have hopen : ∀ {key}, server.opened key = true → key ≠ fd := by
    rintro key hkey rfl
    rw [hclosed] at hkey
    cases hkey
  refine ⟨?_, ?_, ?_, ?_, hinv.once, ?_, hinv.nodup, ?_⟩
  · intro address found hfound
    dsimp only at hfound
    by_cases haddress : address = server.built + 1
    · subst haddress
      rw [Function.update_self] at hfound
      cases hfound
      refine ⟨?_, ?_, rfl, rfl, rfl, ?_, ?_, Nat.succ_pos _, le_rfl, ?_⟩
      · exact OrderedMap.get?_insert_self _ _ _
      · exact Function.update_self _ _ _
      · exact Function.update_self _ _ _
      · exact (hopen hinv.listening).symm
      · exact hinv.unbuilt _ (Nat.lt_succ_self _)
    · rw [Function.update_of_ne haddress] at hfound
      have hkept := hinv.linked hfound
      have hne := hopen hkept.opened
      exact hkept.frame (OrderedMap.get?_insert_of_ne _ hne _) (Function.update_of_ne hne _ _)
        (Function.update_of_ne hne _ _) (Nat.le_succ _) rfl
  · intro key address hkey
    dsimp only at hkey ⊢
    rw [OrderedMap.get?_insert] at hkey
    split_ifs at hkey with hnew
    · cases hkey
      simp [fdOf, hnew]
    · have hkept := hinv.stored hkey
      rw [fdOf_update_of_ne (hfd hkept)]
      exact hkept
  · intro key registration hregistered
    dsimp only [Epoll.interest_register] at hregistered ⊢
    by_cases hkey : key = fd
    · rw [hkey, Function.update_self] at hregistered
      cases hregistered
      right
      simp [fdOf, hkey]
    · rw [Function.update_of_ne hkey] at hregistered
      rcases hinv.owned hregistered with hserver | howner
      · exact .inl hserver
      · rw [fdOf_update_of_ne (hfd howner)]
        exact .inr howner
  · exact (Function.update_of_ne (hopen hinv.listening) _ _).trans hinv.listening
  · intro address haddress
    exact hinv.unbuilt address ((Nat.lt_succ_self _).trans haddress)
  · intro address haddress
    rcases hinv.live address haddress with hserver | hlive
    · exact .inl hserver
    · obtain ⟨kept, hkept⟩ := Option.isSome_iff_exists.mp hlive
      rw [fdOf_update_of_ne (hfd hkept)]
      exact .inr hlive

/-! ### The batch -/

/-- Different descriptors are registered with different channels. -/
theorem Inv.fd_of_channel (hinv : Inv listenfd server) {first second : Fd}
    {one other : Registration} (hone : server.ep.interest first = some one)
    (hother : server.ep.interest second = some other) (hchannel : one.channel = other.channel) :
    first = second := by
  have hpositive : ∀ {fd}, fdOf server.objects 0 ≠ some fd := by
    intro fd hobject
    obtain ⟨connection, hobject, -⟩ := fdOf_eq_some_iff.mp hobject
    exact absurd (hinv.linked hobject).positive (Nat.lt_irrefl 0)
  rcases hinv.owned hone with ⟨rfl, hzero⟩ | howner
  · rcases hinv.owned hother with ⟨rfl, -⟩ | hclient
    · rfl
    · rw [← hchannel, hzero] at hclient
      exact absurd hclient hpositive
  · rcases hinv.owned hother with ⟨rfl, hzero⟩ | hclient
    · rw [hchannel, hzero] at howner
      exact absurd howner hpositive
    · rw [hchannel, hclient] at howner
      exact (Option.some.inj howner).symm

/-- The batch may be any list of channels of live objects, each once. -/
theorem Inv.withBatch (hinv : Inv listenfd server) {batch : List ℕ} (hnodup : batch.Nodup)
    (hlive : ∀ address ∈ batch, address = 0 ∨ (fdOf server.objects address).isSome = true) :
    Inv listenfd { server with batch } :=
  ⟨fun hobject ↦ { hinv.linked hobject with }, hinv.stored, hinv.owned, hinv.listening, hinv.once,
    hinv.unbuilt, hnodup, hlive⟩

@[simp] theorem ep_setrevents (address : ℕ) (ev : EventMask) :
    (server.setrevents address ev).ep = server.ep := by
  unfold Server.setrevents
  split <;> rfl

@[simp] theorem fdOf_setrevents (address : ℕ) (ev : EventMask) :
    fdOf (server.setrevents address ev).objects = fdOf server.objects := by
  unfold Server.setrevents
  split
  · rfl
  · cases hobject : server.objects address with
    | none => rw [Option.map_none, Function.update_eq_self_iff.mpr hobject.symm]
    | some connection => exact fdOf_update hobject rfl

/-- `setrevents` on a registered channel keeps the invariant. -/
theorem Inv.setrevents (hinv : Inv listenfd server) {address : ℕ}
    (hlive : address = 0 ∨ (fdOf server.objects address).isSome = true) (ev : EventMask) :
    Inv listenfd (server.setrevents address ev) := by
  unfold Server.setrevents
  split_ifs with hserver
  · exact ⟨fun hobject ↦ { hinv.linked hobject with }, hinv.stored, hinv.owned, hinv.listening,
      hinv.once, hinv.unbuilt, hinv.nodup, hinv.live⟩
  · obtain ⟨fd, hfd⟩ := Option.isSome_iff_exists.mp (hlive.resolve_left hserver)
    obtain ⟨connection, hobject, -⟩ := fdOf_eq_some_iff.mp hfd
    rw [hobject, Option.map_some]
    refine hinv.replace hobject rfl rfl ?_
    exact (Function.update_eq_self_iff.mpr (hinv.linked hobject).registered.symm).symm

/-- Reporting a registered descriptor appends its channel to the batch. -/
theorem Inv.report (hinv : Inv listenfd server) {entry : Fd × EventMask}
    {registration : Registration} (hentry : server.ep.interest entry.1 = some registration)
    (hbatch : registration.channel ∉ server.batch) :
    (server.report entry).ep = server.ep ∧
      (server.report entry).batch = server.batch ++ [registration.channel] ∧
      Inv listenfd (server.report entry) := by
  have hlive : registration.channel = 0 ∨
      (fdOf server.objects registration.channel).isSome = true := by
    rcases hinv.owned hentry with ⟨-, hserver⟩ | hobject
    · exact .inl hserver
    · exact .inr (by simp [hobject])
  have hreport : server.report entry =
      { server.setrevents registration.channel entry.2 with
        batch := server.batch ++ [registration.channel] } := by
    rw [Server.report, hentry]
  rw [hreport]
  refine ⟨ep_setrevents _ _, rfl, (hinv.setrevents hlive entry.2).withBatch ?_ ?_⟩
  · refine List.nodup_append.mpr ⟨hinv.nodup, List.pairwise_singleton _ _, ?_⟩
    rintro address haddress _ hnew rfl
    exact hbatch (List.mem_singleton.mp hnew ▸ haddress)
  · intro address haddress
    rw [fdOf_setrevents]
    rcases List.mem_append.mp haddress with hbefore | hnew
    · exact hinv.live address hbefore
    · rw [List.mem_singleton.mp hnew]
      exact hlive

/-- `epoll_wait` reports different registered descriptors, so the channels of the batch are those of
live objects, each once. -/
theorem Inv.epollWait {reported : List (Fd × EventMask)} (hinv : Inv listenfd server)
    (hnodup : (reported.map Prod.fst).Nodup)
    (hregistered : ∀ entry ∈ reported, ∃ registration,
      server.ep.interest entry.1 = some registration ∧ registration.channel ∉ server.batch) :
    Inv listenfd (reported.foldl Server.report server) := by
  induction reported generalizing server with
  | nil => exact hinv
  | cons entry rest ih =>
    obtain ⟨registration, hentry, hbatch⟩ := hregistered entry List.mem_cons_self
    obtain ⟨hep, hnext, hreport⟩ := hinv.report hentry hbatch
    rw [List.map_cons, List.nodup_cons] at hnodup
    refine ih hreport hnodup.2 fun later hlater ↦ ?_
    obtain ⟨other, hother, houtside⟩ := hregistered later (List.mem_cons_of_mem _ hlater)
    refine ⟨other, by rw [hep, hother], ?_⟩
    rw [hnext, List.mem_append, List.mem_singleton]
    rintro (hbefore | hsame)
    · exact houtside hbefore
    · have hfd := hinv.fd_of_channel hother hentry hsame
      exact hnodup.1 (hfd ▸ List.mem_map_of_mem hlater)

/-! ### Every step -/

/-- What a read callback leaves is a connection on the same channel. -/
def Outcome.Keeps (connection : Connection) : Outcome → Prop
  | .reading next | .drained next _ | .closed next =>
    next.fd = connection.fd ∧ next.clientchannel = connection.clientchannel

/-- `onmessage` keeps the descriptor and the channel. -/
theorem keeps_of_onmessage {stale : ℕ → Stale} {results : List ReadResult}
    {connection : Connection} {outcome : Outcome}
    (hcall : connection.onmessage stale results = .ok outcome) :
    Outcome.Keeps connection outcome := by
  induction results generalizing connection with
  | nil =>
    cases hcall
    exact ⟨rfl, rfl⟩
  | cons result rest ih =>
    cases result with
    | data chunk =>
      have hkeeps := ih hcall
      cases outcome <;> exact hkeeps
    | failed errno =>
      rw [Connection.onmessage] at hcall
      split_ifs at hcall
      · exact ih hcall
      · split at hcall
        · cases hcall
        · cases hcall
          exact ⟨rfl, rfl⟩
      · exact ih hcall
    | eof =>
      cases hcall
      exact ⟨rfl, rfl⟩

/-- `disabwriting` tells the instance which events are left. -/
theorem Linked.disabwriting {address : ℕ} {connection : Connection}
    (hlinked : Linked listenfd server address connection) :
    connection.clientchannel.disabwriting server.ep =
      .ok ({ connection.clientchannel with
          event := connection.clientchannel.event &&& ~~~EPOLLOUT },
        server.ep.register connection.fd
          ⟨connection.clientchannel.event &&& ~~~EPOLLOUT, address⟩) := by
  have hupdated := Channel.updatechannel_of_flagMirrors
    { connection.clientchannel with event := connection.clientchannel.event &&& ~~~EPOLLOUT }
    hlinked.flagMirrors
  rw [Channel.disabwriting, hupdated]
  simp only [hlinked.channel, hlinked.this, hlinked.inepoll]

/-- The write callback keeps the descriptor and the channel, but for the events it wants, which the
instance is told. -/
theorem setwritecallback_spec {address : ℕ} {connection : Connection}
    (hlinked : Linked listenfd server address connection) (writen : ℤ) :
    ∃ next ep completed event, connection.setwritecallback writen server.ep =
        .ok (next, ep, completed) ∧
      next.fd = connection.fd ∧ next.clientchannel = { connection.clientchannel with event } ∧
      ep.interest = Function.update server.ep.interest connection.fd (some ⟨event, address⟩) := by
  rw [Connection.setwritecallback, sent_eq]
  dsimp only
  split_ifs
  · rw [hlinked.disabwriting]
    exact ⟨_, _, _, _, rfl, rfl, rfl, rfl⟩
  · refine ⟨_, _, _, _, rfl, rfl, rfl, ?_⟩
    exact (Function.update_eq_self_iff.mpr hlinked.registered.symm).symm

/-- The handler of the listening channel keeps the invariant. -/
theorem Inv.handleServer (hinv : Inv listenfd server) {kernel : Kernel} {next : Server}
    (hstep : server.handleServer kernel = some next) : Inv listenfd next := by
  rw [Server.handleServer] at hstep
  split at hstep
  · split at hstep
    · cases hstep
      exact hinv
    · rename_i clientfd haccepted
      rw [Option.bind_eq_some_iff] at hstep
      obtain ⟨accepted, haccept, hstep⟩ := hstep
      obtain ⟨-, -, built, hbuilt, -, hnext⟩ := hinv.newconnection haccept
      rw [hbuilt] at hstep
      cases hstep
      exact hnext
  all_goals cases hstep

/-- The handler of a connection keeps the invariant, when its channel is not in the batch any
more. -/
theorem Inv.handleClient (hinv : Inv listenfd server) {kernel : Kernel} {next : Server}
    {address : ℕ} {connection : Connection} (hobject : server.objects address = some connection)
    (hbatch : address ∉ server.batch)
    (hstep : server.handleClient kernel address connection = some next) : Inv listenfd next := by
  have hlinked := hinv.linked hobject
  have hread : ∀ {read : Connection}, read.fd = connection.fd →
      read.clientchannel = connection.clientchannel → Inv listenfd
        { server with objects := Function.update server.objects address (some read) } := by
    intro read hfd hchannel
    refine @Inv.replace _ _ hinv _ _ _ server.ep _ _ hobject hfd hchannel ?_
    exact (Function.update_eq_self_iff.mpr hlinked.registered.symm).symm
  rw [Server.handleClient] at hstep
  split at hstep
  · cases hstep
    exact hinv.erase hobject hbatch
  · cases hstep
    exact hinv.erase hobject hbatch
  · split at hstep
    · cases hstep
    · cases hstep
    · rename_i read messages hcall
      cases hstep
      obtain ⟨hfd, hchannel⟩ := keeps_of_onmessage hcall
      exact hread hfd hchannel
    · rename_i read hcall
      cases hstep
      obtain ⟨hfd, hchannel⟩ := keeps_of_onmessage hcall
      exact (hread hfd hchannel).erase (Function.update_self _ _ _) hbatch
  · obtain ⟨written, ep, completed, event, hcall, hfd, hchannel, hep⟩ :=
      setwritecallback_spec hlinked kernel.writen
    rw [hcall] at hstep
    cases hstep
    exact hinv.replace hobject hfd hchannel hep

/-- Every step keeps the invariant. -/
theorem Inv.step (hinv : Inv listenfd server) {label : Label} {next : Server}
    (hstep : step server label = some next) : Inv listenfd next := by
  cases label with
  | epollWait reported =>
    rw [Lifecycle.step] at hstep
    split_ifs at hstep with hready
    cases hstep
    obtain ⟨hbatch, hnodup, hregistered⟩ := hready
    refine hinv.epollWait hnodup fun entry hentry ↦ ?_
    obtain ⟨registration, hfound⟩ := Option.isSome_iff_exists.mp (hregistered entry hentry)
    exact ⟨registration, hfound, by rw [hbatch]; exact List.not_mem_nil⟩
  | handleevent kernel =>
    rw [Lifecycle.step] at hstep
    split at hstep
    · cases hstep
    · rename_i address rest hbatch
      have hnodup := hinv.nodup
      have hlive := hinv.live
      rw [hbatch] at hnodup hlive
      obtain ⟨haddress, hnodup⟩ := List.nodup_cons.mp hnodup
      have hpopped := hinv.withBatch hnodup fun other hother ↦
        hlive other (List.mem_cons_of_mem _ hother)
      dsimp only at hstep
      split_ifs at hstep
      · exact hpopped.handleServer hstep
      · split at hstep
        · cases hstep
        · rename_i connection hobject
          exact hpopped.handleClient hobject haddress hstep

/-- The server after its constructors. -/
theorem inv_of_initial (hinitial : Initial listenfd server) : Inv listenfd server := by
  refine ⟨?_, ?_, ?_, hinitial.opened, ?_, ?_, ?_, ?_⟩
  · intro address connection hobject
    rw [hinitial.objects] at hobject
    cases hobject
  · intro fd address hstored
    rw [hinitial.connections] at hstored
    cases hstored
  · intro fd registration hregistered
    rw [hinitial.interest] at hregistered
    by_cases hfd : fd = listenfd
    · rw [hfd, Function.update_self] at hregistered
      cases hregistered
      exact .inl ⟨hfd, rfl⟩
    · rw [Function.update_of_ne hfd] at hregistered
      cases hregistered
  · intro address
    rw [hinitial.destroyed]
    exact Nat.zero_le 1
  · intro address _
    rw [hinitial.destroyed]
  · rw [hinitial.batch]
    exact List.nodup_nil
  · intro address haddress
    rw [hinitial.batch] at haddress
    cases haddress

/-! ### The life cycle -/

/-- A descriptor is one of a live connection. -/
def Server.IsClient (server : Server) (fd : Fd) : Prop :=
  ∃ address, fdOf server.objects address = some fd

/-- What the life cycle is to be like, between two calls of handlers. -/
structure LifeCycle (listenfd : Fd) (server : Server) : Prop where
  /-- The keys of `connections` are the descriptors of the live connections. -/
  keys : ∀ fd, (server.connections.get? fd).isSome = true ↔ server.IsClient fd
  /-- So are the descriptors in the interest set, but for that of the listening socket. -/
  interest : ∀ fd, fd ≠ listenfd ∧ (server.ep.interest fd).isSome = true ↔ server.IsClient fd
  /-- Each connection is stored under its own descriptor, and `inepoll_` of its channel is set. -/
  stored : ∀ address connection, server.objects address = some connection →
    server.connections.get? connection.fd = some address ∧
      connection.clientchannel.inepoll = true
  /-- A connection on what `accept4` can return is under a new key, and added to the instance where
  its descriptor is not present; no object is destroyed for it. -/
  newconnection : ∀ clientfd accepted, server.accept clientfd = some accepted →
    accepted.connections.get? clientfd = none ∧ accepted.ep.interest clientfd = none ∧
      ∃ next, accepted.newconnection clientfd = some next ∧ next.destroyed = server.destroyed
  once : ∀ address, server.destroyed address ≤ 1
  /-- The channels of the batch belong to the listening socket or to live connections. -/
  batch : ∀ address ∈ server.batch, address = 0 ∨ (server.objects address).isSome = true

/-- The invariant gives the life cycle. -/
theorem Inv.lifeCycle (hinv : Inv listenfd server) : LifeCycle listenfd server := by
  have hclient : ∀ {fd}, server.IsClient fd → fd ≠ listenfd ∧
      (server.connections.get? fd).isSome = true ∧ (server.ep.interest fd).isSome = true := by
    rintro fd ⟨address, hfd⟩
    obtain ⟨connection, hobject, rfl⟩ := fdOf_eq_some_iff.mp hfd
    have hlinked := hinv.linked hobject
    exact ⟨hlinked.client, by simp [hlinked.stored], by simp [hlinked.registered]⟩
  refine ⟨?_, ?_, ?_, ?_, hinv.once, ?_⟩
  · refine fun fd ↦ ⟨fun hkey ↦ ?_, fun h ↦ (hclient h).2.1⟩
    obtain ⟨address, hstored⟩ := Option.isSome_iff_exists.mp hkey
    exact ⟨address, hinv.stored hstored⟩
  · refine fun fd ↦ ⟨?_, fun h ↦ ⟨(hclient h).1, (hclient h).2.2⟩⟩
    rintro ⟨hne, hinterest⟩
    obtain ⟨registration, hregistered⟩ := Option.isSome_iff_exists.mp hinterest
    rcases hinv.owned hregistered with ⟨hserver, -⟩ | howner
    · exact absurd hserver hne
    · exact ⟨registration.channel, howner⟩
  · exact fun address connection hobject ↦
      ⟨(hinv.linked hobject).stored, (hinv.linked hobject).inepoll⟩
  · intro clientfd accepted haccept
    obtain ⟨hstored, hinterest, next, hnext, hdestroyed, -⟩ := hinv.newconnection haccept
    exact ⟨hstored, hinterest, next, hnext, hdestroyed⟩
  · intro address haddress
    have hlive := hinv.live address haddress
    rwa [fdOf, Option.isSome_map] at hlive

/-- In every state of every run of the single-reactor server, for any batches and any accepts, data,
peer closes and errors, descriptors being used again even in the batch they were closed in: the keys
of `connections`, the descriptors of the live connections and the client descriptors of the interest
set are the same, each connection under its own and with `inepoll_` set; a new connection overwrites
no entry and is added where its descriptor is not present; no connection is destroyed twice; and
every channel not yet handled belongs to a live object. -/
theorem lifecycle {listenfd : Fd} {server : Server}
    (hreach : (system listenfd).Reachable server) : LifeCycle listenfd server := by
  refine Inv.lifeCycle (hreach.invariant (Inv listenfd) (fun _ ↦ inv_of_initial) ?_)
  exact fun _ _ _ hinv _ hstep ↦ hinv.step hstep

/-- The server before the first connection. -/
def Server.start : Server where
  ep := Epoll.epollCreate.register 3 ⟨EPOLLIN, 0⟩
  serverchannel := ⟨0, 3, true, EPOLLIN, 0⟩
  objects := fun _ ↦ none
  connections := .empty
  opened := fun fd ↦ fd < 4
  batch := []
  built := 0
  destroyed := fun _ ↦ 0

theorem initial_start : Initial 3 .start := ⟨rfl, rfl, rfl, rfl, rfl, rfl⟩

/-- The kernel has accepted a connection on the descriptor `5`. -/
def Kernel.five : Kernel := ⟨some 5, [], fun _ _ ↦ 0, 0⟩

/-- A peer closes its connection, and the descriptor is accepted again in the same batch. -/
theorem lifecycle_again :
    ∃ server, (system 3).Reachable server ∧ server.built = 2 ∧ server.destroyed 1 = 1 ∧
      server.connections.get? 5 = some 2 ∧ LifeCycle 3 server := by
  have hreach : ∃ server, (system 3).Reachable server ∧ server.built = 2 ∧
      server.destroyed 1 = 1 ∧ server.connections.get? 5 = some 2 := by
    refine ⟨_, .of_run (.initial initial_start)
      [.epollWait [(3, EPOLLIN)], .handleevent .five,
        .epollWait [(5, EPOLLIN), (3, EPOLLIN)],
        .handleevent { Kernel.five with results := [.eof] }, .handleevent .five] rfl, ?_⟩
    exact ⟨rfl, rfl, rfl⟩
  obtain ⟨server, hserver, hbuilt, hdestroyed, hstored⟩ := hreach
  exact ⟨server, hserver, hbuilt, hdestroyed, hstored, lifecycle hserver⟩

end Reactor.SingleReactor.Lifecycle
