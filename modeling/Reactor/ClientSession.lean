import Reactor.EchoService
import Reactor.Library.Simulation
import Mathlib.Data.Nat.Digits.Defs

/-!
# The client against the service

The client sends a request, waits for the header of the reply and then for as many bytes as the
header says, and starts again (`client.cpp`). It asks `recv` for the bytes it wants and does not
look at how many it gets. This is the client over one connection to the service of `EchoService`,
whose other connections go on as they like. The network delivers what the client has sent in pieces
of any size (`wire`), and `recv` returns some of what the service has sent and the client has not
got.

The client never has two requests on the way, so that it stays in step with the stream of replies as
long as no `recv` is short and the main thread disturbs no handler of the service, by which a
request may be lost: what it finds in its buffer in each iteration is the reply to the request of
that iteration (`replies_read`). Along runs in which also the steps of the service rearm, it is
never left waiting: when nothing is on its way and the service is at rest, what it waits for is
there (`never_starved`). When the service closes the connection its descriptor is not used again
here, so that the streams stay those of the client.
-/

set_option autoImplicit false
set_option relaxedAutoImplicit false

namespace Reactor.ClientSession

open Library NativeInt Buffer Connection
open EchoService (echo)
open ReplyFraming (reply)

/-- What `"%d"` prints. -/
def decimal (number : ℕ) : Bytes :=
  (Nat.toDigits 10 number).map fun digit ↦ UInt8.ofNat digit.toNat

/-- What `sprintf` puts into `buf`. -/
def request (ii : ℕ) : Bytes :=
  [232, 191, 153, 230, 152, 175, 231, 172, 172] ++ decimal ii ++
    [229, 143, 170, 240, 159, 144, 142, 240, 159, 152, 132, 240, 159, 152, 132, 227, 128, 130]

/-- The statement of the loop that comes next: `send`, the first `recv`, or the second one. -/
inductive Phase
  | sending
  | header
  | body
  deriving DecidableEq

structure State where
  service : EchoService.State
  /-- What has been sent and has not arrived. -/
  wire : Bytes
  /-- The service has accepted the connection. -/
  accepted : Bool
  /-- What the client has got of the bytes the service sent. -/
  consumed : Bytes
  phase : Phase
  ii : ℕ
  /-- The four bytes of the variable `len`. -/
  len : Bytes
  /-- What `buf` held at the end of each iteration. -/
  got : List Bytes

inductive Label
  /-- A step of the service that is not about what arrives on the connection. -/
  | service (label : EchoService.Label)
  /-- The service accepts the connection, when some bytes have arrived on it already. -/
  | accept (this : ℕ) (now : ℤ) (level : EventMask) (count : ℕ)
  | deliver (count : ℕ)
  | send
  /-- With the number of bytes `recv` returns. -/
  | recvHeader (count : ℕ)
  | recvBody (count : ℕ)

/-- An `int` in memory, converted to `size_t`. -/
def sizeOfBytes : Bytes → ℕ
  | [b₀, b₁, b₂, b₃] => sizeOfInt (decodeInt b₀ b₁ b₂ b₃)
  | _ => 0

/-- The frame the client makes of its request. -/
def frame (ii : ℕ) : Bytes := encodeInt (intOfSize (request ii).length) ++ request ii

section Steps

variable (fd : Fd)

/-- What the client can still get. -/
def State.available (state : State) : Bytes :=
  (state.service.sent fd).drop state.consumed.length

/-- `recv` may return no bytes: the service has closed the connection, and all bytes have been
got. -/
def State.ended (state : State) : Bool :=
  state.accepted && (state.service.loop.connections fd).isNone && (state.available fd).isEmpty

def step (state : State) : Label → Option State
  | .service label =>
    if EchoService.Apart fd label then
      (EchoService.step state.service label).map fun service ↦ { state with service }
    else none
  | .accept this now level count =>
    if state.accepted = false then
      (EchoService.step state.service
        (.accept fd this now level (state.wire.take count))).map fun service ↦
          { state with service, wire := state.wire.drop count, accepted := true }
    else none
  | .deliver count =>
    if state.accepted = true then
      (EchoService.step state.service (.arrive fd (state.wire.take count))).map fun service ↦
        { state with service, wire := state.wire.drop count }
    else none
  | .send =>
    if state.phase = .sending ∧ state.ii < 100000 then
      some { state with
        wire := state.wire ++ frame state.ii
        len := encodeInt (intOfSize (request state.ii).length)
        phase := .header }
    else none
  | .recvHeader count =>
    if state.phase = .header ∧ count ≤ 4 ∧ count ≤ (state.available fd).length ∧
        (count = 0 → state.ended fd = true) then
      some { state with
        len := (state.available fd).take count ++ state.len.drop count
        consumed := state.consumed ++ (state.available fd).take count
        phase := .body }
    else none
  | .recvBody count =>
    -- More than `buf` has room for would be written behind it.
    if state.phase = .body ∧ count ≤ sizeOfBytes state.len ∧ count ≤ 1024 ∧
        count ≤ (state.available fd).length ∧
        (count = 0 → sizeOfBytes state.len = 0 ∨ state.ended fd = true) then
      some { state with
        got := state.got ++ [(state.available fd).take count]
        consumed := state.consumed ++ (state.available fd).take count
        phase := .sending
        ii := state.ii + 1 }
    else none

/-- The client has connected, and the service has not accepted the connection. -/
structure Initial (state : State) : Prop where
  service : MainThread.Initial state.service.toState
  unread : state.service.unread fd = []
  received : state.service.received fd = []
  sent : state.service.sent fd = []
  wire : state.wire = []
  accepted : state.accepted = false
  consumed : state.consumed = []
  phase : state.phase = .sending
  ii : state.ii = 1
  got : state.got = []

/-- The client and the service, which has accepted its connection on a descriptor. -/
def system : TransitionSystem State Label where
  initial := Initial fd
  step := step fd

end Steps

/-- What a step does. -/
inductive Effect (fd : Fd) (state : State) : Label → State → Prop
  | service {label : EchoService.Label} {service : EchoService.State}
      (hapart : EchoService.Apart fd label)
      (hservice : EchoService.step state.service label = some service) :
      Effect fd state (.service label) { state with service }
  | accept {this : ℕ} {now : ℤ} {level : EventMask} {count : ℕ} {service : EchoService.State}
      (haccepted : state.accepted = false)
      (hservice : EchoService.step state.service
        (.accept fd this now level (state.wire.take count)) = some service) :
      Effect fd state (.accept this now level count)
        { state with service, wire := state.wire.drop count, accepted := true }
  | deliver {count : ℕ} {service : EchoService.State} (haccepted : state.accepted = true)
      (hservice : EchoService.step state.service (.arrive fd (state.wire.take count)) =
        some service) :
      Effect fd state (.deliver count) { state with service, wire := state.wire.drop count }
  | send (hphase : state.phase = .sending) (hii : state.ii < 100000) :
      Effect fd state .send { state with
        wire := state.wire ++ frame state.ii
        len := encodeInt (intOfSize (request state.ii).length)
        phase := .header }
  | recvHeader {count : ℕ} (hphase : state.phase = .header)
      (hcount : count ≤ (state.available fd).length) :
      Effect fd state (.recvHeader count) { state with
        len := (state.available fd).take count ++ state.len.drop count
        consumed := state.consumed ++ (state.available fd).take count
        phase := .body }
  | recvBody {count : ℕ} (hphase : state.phase = .body)
      (hcount : count ≤ (state.available fd).length) :
      Effect fd state (.recvBody count) { state with
        got := state.got ++ [(state.available fd).take count]
        consumed := state.consumed ++ (state.available fd).take count
        phase := .sending
        ii := state.ii + 1 }

theorem effect_of_step {fd : Fd} {state next : State} {label : Label}
    (hstep : step fd state label = some next) : Effect fd state label next := by
  cases label with
  | service =>
    rw [step, Option.ite_none_right_eq_some] at hstep
    obtain ⟨service, hservice, rfl⟩ := Option.map_eq_some_iff.mp hstep.2
    exact .service hstep.1 hservice
  | accept =>
    rw [step, Option.ite_none_right_eq_some] at hstep
    obtain ⟨service, hservice, rfl⟩ := Option.map_eq_some_iff.mp hstep.2
    exact .accept hstep.1 hservice
  | deliver =>
    rw [step, Option.ite_none_right_eq_some] at hstep
    obtain ⟨service, hservice, rfl⟩ := Option.map_eq_some_iff.mp hstep.2
    exact .deliver hstep.1 hservice
  | send =>
    rw [step, Option.ite_none_right_eq_some] at hstep
    obtain ⟨⟨hphase, hii⟩, hnext⟩ := hstep
    cases hnext
    exact .send hphase hii
  | recvHeader =>
    rw [step, Option.ite_none_right_eq_some] at hstep
    obtain ⟨⟨hphase, -, hcount, -⟩, hnext⟩ := hstep
    cases hnext
    exact .recvHeader hphase hcount
  | recvBody =>
    rw [step, Option.ite_none_right_eq_some] at hstep
    obtain ⟨⟨hphase, -, -, hcount, -⟩, hnext⟩ := hstep
    cases hnext
    exact .recvBody hphase hcount

/-- No `recv` is short, and the main thread disturbs no step of the service. -/
def Whole (state : State) : Label → Prop
  | .service label => EchoService.Undisturbed state.service label
  | .recvHeader count => count = 4
  | .recvBody count => count = sizeOfBytes state.len
  | _ => True

/-- Moreover the steps of the service rearm. -/
def Orderly (state : State) : Label → Prop
  | .service label => EchoService.Smooth state.service label
  | label => Whole state label

instance (state : State) : ∀ label, Decidable (Whole state label)
  | .service label => inferInstanceAs (Decidable (EchoService.Undisturbed state.service label))
  | .recvHeader count => inferInstanceAs (Decidable (count = 4))
  | .recvBody count => inferInstanceAs (Decidable (count = sizeOfBytes state.len))
  | .accept _ _ _ _ | .deliver _ | .send => .isTrue trivial

instance (state : State) : ∀ label, Decidable (Orderly state label)
  | .service label => inferInstanceAs (Decidable (EchoService.Smooth state.service label))
  | .recvHeader count => inferInstanceAs (Decidable (count = 4))
  | .recvBody count => inferInstanceAs (Decidable (count = sizeOfBytes state.len))
  | .accept _ _ _ _ | .deliver _ | .send => .isTrue trivial

theorem whole_of_orderly {state : State} {label : Label} (horderly : Orderly state label) :
    Whole state label := by
  cases label with
  | service => exact horderly.1
  | _ => exact horderly

/-! ### The requests and their replies -/

theorem length_request {ii : ℕ} (hii : ii < 100000) : (request ii).length ≤ 32 := by
  have hdecimal : (decimal ii).length ≤ 5 := by
    rw [decimal, List.length_map]
    exact Nat.toDigits_length 10 ii 5 (by decide) hii
  simp only [request, List.length_append, List.length_cons, List.length_nil]
  omega

/-- A request begins with the byte 232. -/
theorem request_ne_noMessage (ii : ℕ) : request ii ≠ noMessage := by
  intro heq
  have hhead := congrArg List.head? heq
  simp [request, noMessage] at hhead

/-- The header of a reply. -/
def replyHeader (ii : ℕ) : Bytes := encodeInt (intOfSize (reply (request ii)).length)

theorem length_replyHeader (ii : ℕ) : (replyHeader ii).length = 4 := rfl

theorem handledata_request (ii : ℕ) :
    ReplyPipeline.handledata (request ii) = replyHeader ii ++ reply (request ii) := rfl

/-- The header of a reply is read as its length. -/
theorem sizeOfBytes_replyHeader {ii : ℕ} (hii : ii < 100000) :
    sizeOfBytes (replyHeader ii) = (reply (request ii)).length := by
  have hrequest := length_request hii
  have hlength := ReplyFraming.length_reply (request ii)
  have hint : intOfSize (reply (request ii)).length = (reply (request ii)).length :=
    intOfSize_of_le (by unfold INT_MAX; omega)
  change sizeOfInt (decodeInt _ _ _ _) = _
  rw [hint, decodeInt_encodeInt (by unfold INT_MIN; omega) (by unfold INT_MAX; omega),
    sizeOfInt_of_nonneg (by omega) (by unfold INT_MAX; omega), Int.toNat_natCast]

/-- The frames of the first requests. -/
def requestStream (count : ℕ) : Bytes := (List.range count).flatMap fun index ↦ frame (index + 1)

/-- What the service is to send for them. -/
def replyStream (count : ℕ) : Bytes :=
  (List.range count).flatMap fun index ↦ ReplyPipeline.handledata (request (index + 1))

theorem requestStream_succ (count : ℕ) :
    requestStream (count + 1) = requestStream count ++ frame (count + 1) := by
  rw [requestStream, List.range_succ, List.flatMap_append, List.flatMap_singleton, requestStream]

theorem replyStream_succ (count : ℕ) :
    replyStream (count + 1) =
      replyStream count ++ (replyHeader (count + 1) ++ reply (request (count + 1))) := by
  rw [replyStream, List.range_succ, List.flatMap_append, List.flatMap_singleton,
    handledata_request, replyStream]

/-- The service reads the requests of the client, and answers each. -/
theorem items_requestStream {count : ℕ} (hcount : count < 100000) :
    frameParser.items (requestStream count) =
      (List.range count).map fun index ↦ request (index + 1) := by
  have hencoded : requestStream count =
      ((List.range count).map fun index ↦ request (index + 1)).flatMap encode := by
    rw [List.flatMap_map]
    rfl
  rw [hencoded, items_encodeAll]
  intro payload hpayload
  obtain ⟨index, hindex, rfl⟩ := List.mem_map.mp hpayload
  have hrequest := @length_request (index + 1) (by have := List.mem_range.mp hindex; omega)
  unfold maxPayload
  omega

theorem noMessage_notMem_requestStream {count : ℕ} (hcount : count < 100000) :
    noMessage ∉ frameParser.items (requestStream count) := by
  rw [items_requestStream hcount]
  intro hmem
  obtain ⟨index, -, heq⟩ := List.mem_map.mp hmem
  exact request_ne_noMessage _ heq

theorem echo_requestStream {count : ℕ} (hcount : count < 100000) :
    echo (requestStream count) = replyStream count := by
  rw [echo, EchoService.answers_of_not_mem (noMessage_notMem_requestStream hcount),
    items_requestStream hcount, List.flatMap_map]
  rfl

/-! ### The invariant -/

/-- How many requests have been sent. -/
def State.requested (state : State) : ℕ :=
  if state.phase = .sending then state.got.length else state.got.length + 1

/-- What holds in every state, when no `recv` is short. The requests are what has been read, what
has arrived, and what is on its way; the service has sent a prefix of the echo of what it has read;
and of that the client has got the replies to all requests but the last, or the header of that one
too. -/
structure Inv (fd : Fd) (state : State) : Prop where
  served : EchoService.Inv state.service
  fresh : state.accepted = false → state.service.received fd = [] ∧
    state.service.unread fd = [] ∧ state.service.sent fd = []
  ii : state.ii = state.got.length + 1
  bound : state.requested < 100000
  stream : state.service.received fd ++ state.service.unread fd ++ state.wire =
    requestStream state.requested
  replied : state.service.sent fd <+: echo (state.service.received fd)
  consumed : state.consumed <+: state.service.sent fd
  position : state.consumed = replyStream state.got.length ++
    if state.phase = .body then replyHeader state.ii else []
  size : state.phase = .header → state.len.length = 4
  len : state.phase = .body → state.len = replyHeader state.ii
  got : state.got = (List.range state.got.length).map fun index ↦ reply (request (index + 1))

section Steps

variable {fd : Fd} {state next : State}

/-- What has been got and what can still be got is what has been sent. -/
theorem Inv.consumed_append_available (hinv : Inv fd state) :
    state.consumed ++ state.available fd = state.service.sent fd := by
  obtain ⟨rest, hrest⟩ := hinv.consumed
  rw [State.available, ← hrest, List.drop_left]

/-- The service has sent nothing but replies to the requests. -/
theorem Inv.sent_prefix (hinv : Inv fd state) :
    state.service.sent fd <+: replyStream state.requested := by
  refine hinv.replied.trans ?_
  rw [← echo_requestStream hinv.bound, ← hinv.stream, List.append_assoc]
  exact EchoService.echo_prefix (List.prefix_append _ _)

/-- What the client can get, when it waits for a header, is the beginning of the reply. -/
theorem Inv.available_header (hinv : Inv fd state) (hphase : state.phase = .header) :
    state.available fd <+: replyHeader state.ii ++ reply (request state.ii) := by
  have hsent := hinv.sent_prefix
  rw [← hinv.consumed_append_available, hinv.position, hphase, if_neg (by simp), List.append_nil,
    State.requested, hphase, if_neg (by simp), replyStream_succ, ← hinv.ii,
    List.prefix_append_right_inj] at hsent
  exact hsent

theorem Inv.available_body (hinv : Inv fd state) (hphase : state.phase = .body) :
    state.available fd <+: reply (request state.ii) := by
  have hsent := hinv.sent_prefix
  rw [← hinv.consumed_append_available, hinv.position, hphase, if_pos rfl, State.requested, hphase,
    if_neg (by simp), replyStream_succ, ← hinv.ii, List.append_assoc,
    List.prefix_append_right_inj, List.prefix_append_right_inj] at hsent
  exact hsent

/-- As much of a prefix as it has is as much of the whole. -/
theorem take_eq_of_front {front whole : Bytes} (hfront : front <+: whole) {count : ℕ}
    (hcount : count ≤ front.length) : front.take count = whole.take count := by
  obtain ⟨rest, rfl⟩ := hfront
  rw [List.take_append_of_le_length hcount]

/-- A step of the service that is not about what arrives on the connection. -/
theorem Inv.service {label : EchoService.Label} {service : EchoService.State}
    (hinv : Inv fd state) (hapart : EchoService.Apart fd label)
    (hguard : EchoService.Undisturbed state.service label)
    (hstep : EchoService.step state.service label = some service) :
    Inv fd { state with service } := by
  rcases EchoService.streams_apart hinv.served hapart hstep with
    ⟨hstream, hreceived, hsent⟩ | ⟨hreceived, hunread, hsent, hecho⟩
  · refine { hinv with
      served := hinv.served.step hguard hstep
      fresh := fun haccepted ↦ ?_
      stream := (congrArg (· ++ state.wire) hstream).trans hinv.stream
      replied := hsent.symm ▸ hinv.replied.trans (EchoService.echo_prefix hreceived)
      consumed := hsent.symm ▸ hinv.consumed }
    obtain ⟨hread, hleft, hnone⟩ := hinv.fresh haccepted
    rw [hread, hleft, List.append_nil, List.append_eq_nil_iff] at hstream
    exact ⟨hstream.1, hstream.2, hsent.trans hnone⟩
  · refine { hinv with
      served := hinv.served.step hguard hstep
      fresh := fun haccepted ↦ ?_
      stream := ?_
      replied := hreceived.symm ▸ hecho
      consumed := hinv.consumed.trans hsent }
    · obtain ⟨hread, hleft, -⟩ := hinv.fresh haccepted
      rw [hread, EchoService.echo_nil] at hecho
      exact ⟨hreceived.trans hread, hunread.trans hleft, List.prefix_nil.mp hecho⟩
    · dsimp only
      rw [hreceived, hunread]
      exact hinv.stream

/-- What the service knows of a connection when it accepts it. -/
theorem streams_accept {service after : EchoService.State} {this : ℕ} {now : ℤ} {level : EventMask}
    {early : Bytes} (hstep : EchoService.step service (.accept fd this now level early) =
      some after) : after.received fd = [] ∧ after.unread fd = early ∧ after.sent fd = [] := by
  rw [EchoService.step] at hstep
  split at hstep
  · rename_i loop streams hloop hstreams
    cases hstep
    simp only [EchoService.streams] at hstreams
    split_ifs at hstreams
    cases hstreams
    simp
  · cases hstep

theorem streams_arrive {service after : EchoService.State} {bytes : Bytes}
    (hstep : EchoService.step service (.arrive fd bytes) = some after) :
    after.received = service.received ∧ after.unread fd = service.unread fd ++ bytes ∧
      after.sent = service.sent := by
  rw [EchoService.step] at hstep
  split at hstep
  · rename_i loop streams hloop hstreams
    cases hstep
    cases hstreams
    simp
  · cases hstep

/-- The connection is accepted. -/
theorem Inv.accept {this : ℕ} {now : ℤ} {level : EventMask} {count : ℕ}
    {service : EchoService.State} (hinv : Inv fd state) (haccepted : state.accepted = false)
    (hstep : EchoService.step state.service
      (.accept fd this now level (state.wire.take count)) = some service) :
    Inv fd { state with service, wire := state.wire.drop count, accepted := true } := by
  have hguard : EchoService.Undisturbed state.service
      (.accept fd this now level (state.wire.take count)) := trivial
  obtain ⟨hread, hleft, hnone⟩ := hinv.fresh haccepted
  obtain ⟨hreceived, hunread, hsent⟩ := streams_accept hstep
  have hstream := hinv.stream
  have hconsumed := hinv.consumed
  rw [hread, hleft, List.nil_append] at hstream
  rw [hnone] at hconsumed
  refine { hinv with
    served := hinv.served.step hguard hstep
    fresh := fun h ↦ by cases h
    stream := ?_
    replied := hsent.symm ▸ List.nil_prefix
    consumed := hsent.symm ▸ hconsumed }
  dsimp only
  rw [hreceived, hunread, List.nil_append, List.take_append_drop]
  exact hstream

/-- Some bytes arrive. -/
theorem Inv.deliver {count : ℕ} {service : EchoService.State} (hinv : Inv fd state)
    (haccepted : state.accepted = true)
    (hstep : EchoService.step state.service (.arrive fd (state.wire.take count)) = some service) :
    Inv fd { state with service, wire := state.wire.drop count } := by
  have hguard : EchoService.Undisturbed state.service
      (.arrive fd (state.wire.take count)) := trivial
  obtain ⟨hreceived, hunread, hsent⟩ := streams_arrive hstep
  refine { hinv with
    served := hinv.served.step hguard hstep
    fresh := fun h ↦ by rw [haccepted] at h; cases h
    stream := ?_
    replied := by rw [hreceived, hsent]; exact hinv.replied
    consumed := hsent.symm ▸ hinv.consumed }
  dsimp only
  rw [hreceived, hunread, ← List.append_assoc, List.append_assoc _ (state.wire.take count),
    List.take_append_drop]
  exact hinv.stream

/-- The next request is sent. -/
theorem Inv.send (hinv : Inv fd state) (hphase : state.phase = .sending)
    (hii : state.ii < 100000) :
    Inv fd { state with
      wire := state.wire ++ frame state.ii
      len := encodeInt (intOfSize (request state.ii).length)
      phase := .header } := by
  have hstream := hinv.stream
  have hposition := hinv.position
  have hcount := hinv.ii
  rw [State.requested, if_pos hphase] at hstream
  rw [hphase, if_neg (by simp)] at hposition
  refine { hinv with
    bound := ?_
    stream := ?_
    position := hposition
    size := fun _ ↦ rfl
    len := ?_ }
  · simp only [State.requested, reduceCtorEq, if_false]
    omega
  · simp only [State.requested, reduceCtorEq, if_false]
    rw [requestStream_succ, ← hstream, hcount]
    simp only [List.append_assoc]
  · intro hbody
    cases hbody

/-- The header of the reply is received. -/
theorem Inv.recvHeader (hinv : Inv fd state) (hphase : state.phase = .header)
    (hcount : 4 ≤ (state.available fd).length) :
    Inv fd { state with
      len := (state.available fd).take 4 ++ state.len.drop 4
      consumed := state.consumed ++ (state.available fd).take 4
      phase := .body } := by
  have htake : (state.available fd).take 4 = replyHeader state.ii := by
    rw [take_eq_of_front (hinv.available_header hphase) hcount]
    exact List.take_left' (length_replyHeader state.ii)
  have hposition := hinv.position
  have hbound := hinv.bound
  have hstream := hinv.stream
  rw [hphase, if_neg (by simp), List.append_nil] at hposition
  simp only [State.requested, hphase, reduceCtorEq, if_false] at hbound hstream
  refine { hinv with
    bound := ?_
    stream := ?_
    consumed := ?_
    position := ?_
    size := ?_
    len := ?_ }
  · simpa [State.requested] using hbound
  · simpa [State.requested] using hstream
  · rw [← hinv.consumed_append_available, List.prefix_append_right_inj]
    exact List.take_prefix _ _
  · rw [htake, hposition, if_pos rfl]
  · exact fun h ↦ by cases h
  · intro _
    dsimp only
    rw [htake, List.drop_eq_nil_of_le (hinv.size hphase).le, List.append_nil]

/-- The reply is received. -/
theorem Inv.recvBody (hinv : Inv fd state) (hphase : state.phase = .body)
    (hcount : sizeOfBytes state.len ≤ (state.available fd).length) :
    Inv fd { state with
      got := state.got ++ [(state.available fd).take (sizeOfBytes state.len)]
      consumed := state.consumed ++ (state.available fd).take (sizeOfBytes state.len)
      phase := .sending
      ii := state.ii + 1 } := by
  have hbound := hinv.bound
  have hstream := hinv.stream
  simp only [State.requested, hphase, reduceCtorEq, if_false, ← hinv.ii] at hbound hstream
  have hsize : sizeOfBytes state.len = (reply (request state.ii)).length := by
    rw [hinv.len hphase, sizeOfBytes_replyHeader hbound]
  have htake : (state.available fd).take (sizeOfBytes state.len) = reply (request state.ii) := by
    rw [take_eq_of_front (hinv.available_body hphase) hcount, hsize, List.take_length]
  have hposition := hinv.position
  rw [hphase, if_pos rfl] at hposition
  have hlength : (state.got ++ [reply (request state.ii)]).length = state.ii := by
    rw [List.length_append, List.length_singleton, hinv.ii]
  rw [htake]
  refine { hinv with
    ii := ?_
    bound := ?_
    stream := ?_
    consumed := ?_
    position := ?_
    size := ?_
    len := ?_
    got := ?_ }
  · rw [hlength]
  · rw [State.requested, if_pos rfl, hlength]
    exact hbound
  · rw [State.requested, if_pos rfl, hlength]
    exact hstream
  · rw [← htake, ← hinv.consumed_append_available, List.prefix_append_right_inj]
    exact List.take_prefix _ _
  · rw [hlength, hposition, List.append_assoc, if_neg (by simp), List.append_nil]
    conv_rhs => rw [hinv.ii, replyStream_succ, ← hinv.ii]
  · exact fun h ↦ by cases h
  · exact fun h ↦ by cases h
  · rw [hlength]
    conv_rhs => rw [hinv.ii, List.range_succ, List.map_append, ← hinv.got, List.map_singleton]
    rw [hinv.ii]

/-- An undisturbed step in which `recv` is not short keeps the invariant. -/
theorem Inv.effect {label : Label} (hinv : Inv fd state) (hwhole : Whole state label)
    (heffect : Effect fd state label next) : Inv fd next := by
  cases heffect with
  | service hapart hservice => exact hinv.service hapart hwhole hservice
  | accept haccepted hservice => exact hinv.accept haccepted hservice
  | deliver haccepted hservice => exact hinv.deliver haccepted hservice
  | send hphase hii => exact hinv.send hphase hii
  | @recvHeader count hphase hcount =>
    obtain rfl : count = 4 := hwhole
    exact hinv.recvHeader hphase hcount
  | @recvBody count hphase hcount =>
    obtain rfl : count = sizeOfBytes state.len := hwhole
    exact hinv.recvBody hphase hcount

theorem Inv.of_initial (hinitial : Initial fd state) : Inv fd state where
  served := .initial hinitial.service
  fresh _ := ⟨hinitial.received, hinitial.unread, hinitial.sent⟩
  ii := by rw [hinitial.ii, hinitial.got, List.length_nil]
  bound := by rw [State.requested, if_pos hinitial.phase, hinitial.got]; decide
  stream := by
    rw [hinitial.received, hinitial.unread, hinitial.wire, State.requested,
      if_pos hinitial.phase, hinitial.got]
    rfl
  replied := hinitial.sent ▸ List.nil_prefix
  consumed := hinitial.consumed ▸ List.nil_prefix
  position := by rw [hinitial.consumed, hinitial.got, hinitial.phase, if_neg (by simp)]; rfl
  size hphase := by rw [hinitial.phase] at hphase; cases hphase
  len hphase := by rw [hinitial.phase] at hphase; cases hphase
  got := by rw [hinitial.got]; rfl

/-- When no `recv` is short and nothing is disturbed, the invariant holds in every state. -/
theorem inv_of_whole (hreach : (system fd).ReachesUnder Whole state) : Inv fd state :=
  hreach.invariant (Inv fd) (fun _ ↦ Inv.of_initial) fun _ _ _ hinv hwhole hstep ↦
    hinv.effect hwhole (effect_of_step hstep)

end Steps

/-! ### The session -/

/-- The step of the client that comes next, when no `recv` is to be short. -/
def State.due (state : State) : Option Label :=
  match state.phase with
  | .sending => if state.ii < 100000 then some .send else none
  | .header => some (.recvHeader 4)
  | .body => some (.recvBody (sizeOfBytes state.len))

section Results

variable {fd : Fd} {state : State}

/-- What the client asks for in the second `recv` is the length of the reply. -/
theorem Inv.sizeOfBytes_len (hinv : Inv fd state) (hphase : state.phase = .body) :
    sizeOfBytes state.len = (reply (request state.ii)).length := by
  have hbound := hinv.bound
  rw [State.requested, hphase, if_neg (by simp), ← hinv.ii] at hbound
  rw [hinv.len hphase, sizeOfBytes_replyHeader hbound]

/-- It fits into `buf`. -/
theorem Inv.fits (hinv : Inv fd state) (hphase : state.phase = .body) :
    sizeOfBytes state.len ≤ 1024 := by
  have hbound := hinv.bound
  rw [State.requested, hphase, if_neg (by simp), ← hinv.ii] at hbound
  have hrequest := length_request hbound
  rw [hinv.sizeOfBytes_len hphase, ReplyFraming.length_reply]
  omega

/-- The client has connected to a service without connections. -/
def start : State := ⟨EchoService.start, [], false, [], .sending, 1, [], []⟩

theorem initial_start : Initial fd start where
  service := MainThread.start_initial
  unread := rfl
  received := rfl
  sent := rfl
  wire := rfl
  accepted := rfl
  consumed := rfl
  phase := rfl
  ii := rfl
  got := rfl

/-- The first request arrives in two pieces, the callbacks of the connection are set, and the reply
is sent. -/
def answering : List Label :=
  [.send, .accept 7 0 (EPOLLIN ||| EPOLLOUT) 6, .service (.main .setcallback),
    .service (.main .setcallback), .deliver 100, .service (.main .setcallback),
    .service (.epollWait [.connection 7]), .service (.main .setcallback),
    .service (.main .setcallback),
    .service (.handleevent ⟨.still, [.data ⟨frame 1, by decide +kernel⟩, .failed EAGAIN], 0⟩),
    .service (.epollWait [.connection 7]), .service (.handleevent ⟨.still, [], 38⟩)]

/-- The client gets it. -/
def getting : List Label := [.recvHeader 4, .recvBody 34]

/-- In every run in which no `recv` is short and the main thread disturbs no handler, what the
client has found in its buffer at the end of each iteration is the reply to the request of that
iteration, and what it asks for fits into the buffer. -/
theorem replies_read (hreach : (system fd).ReachesUnder Whole state) :
    state.ii = state.got.length + 1 ∧
      state.got = (List.range state.got.length).map (fun index ↦ reply (request (index + 1))) ∧
      (state.phase = .body → sizeOfBytes state.len ≤ 1024) := by
  have hinv := inv_of_whole hreach
  exact ⟨hinv.ii, hinv.got, hinv.fits⟩

theorem replies_read_first : ∃ state : State, state.got = [reply (request 1)] := by
  have hguarded : (system 7).GuardedRun Whole start (answering ++ getting) := by decide +kernel
  have hfinal : ((system 7).run start (answering ++ getting)).map
      (fun state ↦ decide (state.got.length = 1)) = some true := by
    decide +kernel
  obtain ⟨state, hrun, hstate⟩ := Option.map_eq_some_iff.mp hfinal
  obtain ⟨-, hgot, -⟩ := replies_read (.of_run (.initial initial_start) _ hguarded hrun)
  rw [of_decide_eq_true hstate] at hgot
  exact ⟨state, hgot⟩

/-- A step is a step of the service, or leaves the service alone. -/
theorem Effect.service_eq_or_step {label : Label} {next : State}
    (heffect : Effect fd state label next) :
    next.service = state.service ∨ ∃ labelOf, EchoService.step state.service labelOf =
      some next.service ∧ (Orderly state label → EchoService.Smooth state.service labelOf) := by
  cases heffect with
  | service hapart hservice => exact .inr ⟨_, hservice, id⟩
  | accept haccepted hservice => exact .inr ⟨_, hservice, fun _ ↦ ⟨trivial, trivial⟩⟩
  | deliver haccepted hservice => exact .inr ⟨_, hservice, fun _ ↦ ⟨trivial, trivial⟩⟩
  | send | recvHeader | recvBody => exact .inl rfl

/-- The service of the session is `EchoService`. -/
theorem simulation : Simulation (system fd) EchoService.system Orderly EchoService.Smooth
    fun state service ↦ service = state.service := by
  refine ⟨fun state hinitial ↦ ⟨_, hinitial.service, rfl⟩, ?_⟩
  rintro state service label next rfl horderly hstep
  rcases (effect_of_step hstep).service_eq_or_step with hsame | ⟨labelOf, hservice, hsmooth⟩
  · exact ⟨[], _, trivial, rfl, hsame.symm⟩
  · have hlabel : EchoService.system.step state.service labelOf = some next.service := hservice
    refine ⟨[labelOf], next.service, ⟨hsmooth horderly, ?_⟩, ?_, rfl⟩
    · rw [hlabel]
      trivial
    · rw [TransitionSystem.run_cons, hlabel]
      rfl

/-- At rest, with nothing on its way, the service has sent the reply to every request. -/
theorem sent_at_rest {connection : Connection} (hreach : (system fd).ReachesUnder Orderly state)
    (hconnection : state.service.loop.connections fd = some connection) (hwire : state.wire = [])
    (hbatch : state.service.loop.batch = []) (hready : state.service.loop.ep.ready fd = false)
    (hwritable : state.service.loop.ep.level fd &&& EPOLLOUT ≠ 0) :
    state.service.sent fd = replyStream state.requested := by
  have hinv := inv_of_whole (hreach.mono fun _ _ ↦ whole_of_orderly)
  obtain ⟨_, hservice, rfl⟩ := simulation.reaches hreach
  have hunread := (hinv.served fd connection hconnection).unread_eq_nil hbatch hready
  have hstream := hinv.stream
  rw [hunread, hwire, List.append_nil, List.append_nil] at hstream
  have hnot := noMessage_notMem_requestStream hinv.bound
  rw [← hstream] at hnot
  rw [(EchoService.sent_eq_echo hservice hconnection hbatch hready hwritable hnot).2, hstream,
    echo_requestStream hinv.bound]

/-- When all replies have been sent, the next step of the client can be taken. -/
theorem Inv.due_enabled {label : Label} (hinv : Inv fd state)
    (hsent : state.service.sent fd = replyStream state.requested)
    (hdue : state.due = some label) : Orderly state label ∧
      (ClientSession.step fd state label).isSome = true := by
  rw [← hinv.consumed_append_available, hinv.position, State.requested] at hsent
  rw [State.due] at hdue
  cases hphase : state.phase with
  | sending =>
    simp only [hphase, Option.ite_none_right_eq_some] at hdue
    obtain ⟨hii, hlabel⟩ := hdue
    cases hlabel
    refine ⟨trivial, ?_⟩
    rw [ClientSession.step, if_pos ⟨hphase, hii⟩, Option.isSome_some]
  | header =>
    rw [hphase] at hdue hsent
    cases hdue
    rw [if_neg (by simp), if_neg (by simp), List.append_nil, replyStream_succ, ← hinv.ii,
      List.append_cancel_left_eq] at hsent
    have hlength : 4 ≤ (state.available fd).length := by
      rw [hsent, List.length_append, length_replyHeader]
      omega
    refine ⟨rfl, ?_⟩
    rw [ClientSession.step, if_pos ⟨hphase, le_rfl, hlength, by omega⟩, Option.isSome_some]
  | body =>
    rw [hphase] at hdue hsent
    cases hdue
    rw [if_pos rfl, if_neg (by simp), replyStream_succ, ← hinv.ii, List.append_assoc,
      List.append_cancel_left_eq, List.append_cancel_left_eq] at hsent
    have hlength : sizeOfBytes state.len ≤ (state.available fd).length := by
      rw [hsent, hinv.sizeOfBytes_len hphase]
    refine ⟨rfl, ?_⟩
    rw [ClientSession.step, if_pos ⟨hphase, le_rfl, hinv.fits hphase, hlength, Or.inl⟩,
      Option.isSome_some]

/-- Nothing is to be done after the last iteration only. -/
theorem Inv.due_eq_none (hinv : Inv fd state) (hdue : state.due = none) :
    state.got.length = 99999 := by
  rw [State.due] at hdue
  cases hphase : state.phase with
  | sending =>
    have hii := hinv.ii
    have hbound := hinv.bound
    rw [State.requested, if_pos hphase] at hbound
    simp only [hphase, ite_eq_right_iff, reduceCtorEq, imp_false] at hdue
    omega
  | header | body =>
    rw [hphase] at hdue
    cases hdue

/-- In a run whose steps are orderly, when nothing the client has sent is on its way, the service is
back at `epoll_wait`, and the connection is not on the ready list though its socket is writable: the
next step of the client can be taken, or the client has got all replies. -/
theorem never_starved {connection : Connection} (hreach : (system fd).ReachesUnder Orderly state)
    (hconnection : state.service.loop.connections fd = some connection) (hwire : state.wire = [])
    (hbatch : state.service.loop.batch = []) (hready : state.service.loop.ep.ready fd = false)
    (hwritable : state.service.loop.ep.level fd &&& EPOLLOUT ≠ 0) :
    (∃ label, state.due = some label ∧ Orderly state label ∧
        (step fd state label).isSome = true) ∨
      (state.due = none ∧ state.got.length = 99999) := by
  have hinv := inv_of_whole (hreach.mono fun _ _ ↦ whole_of_orderly)
  have hsent := sent_at_rest hreach hconnection hwire hbatch hready hwritable
  cases hdue : state.due with
  | none => exact .inr ⟨rfl, hinv.due_eq_none hdue⟩
  | some label => exact .inl ⟨label, rfl, hinv.due_enabled hsent hdue⟩

theorem never_starved_first : ∃ state : State, state.phase = .header ∧
    ((∃ label, state.due = some label ∧ Orderly state label ∧
        (step 7 state label).isSome = true) ∨
      (state.due = none ∧ state.got.length = 99999)) := by
  have hguarded : (system 7).GuardedRun Orderly start answering := by decide +kernel
  have hfinal : ((system 7).run start answering).map (fun state ↦ decide
      (state.phase = .header ∧ (state.service.loop.connections 7).isSome = true ∧
        state.wire = [] ∧ state.service.loop.batch = [] ∧
        state.service.loop.ep.ready 7 = false ∧
        state.service.loop.ep.level 7 &&& EPOLLOUT ≠ 0)) = some true := by
    decide +kernel
  obtain ⟨state, hrun, hstate⟩ := Option.map_eq_some_iff.mp hfinal
  obtain ⟨hphase, hlive, hwire, hbatch, hready, hwritable⟩ := of_decide_eq_true hstate
  obtain ⟨connection, hconnection⟩ := Option.isSome_iff_exists.mp hlive
  exact ⟨state, hphase, never_starved (.of_run (.initial initial_start) _ hguarded hrun) hconnection
    hwire hbatch hready hwritable⟩

end Results

end Reactor.ClientSession
