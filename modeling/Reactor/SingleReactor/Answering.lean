import Reactor.EchoService
import Reactor.SingleReactor.Connection

/-!
# Reading and answering on a connection of the single-reactor server

`onmessage` appends all it has read to the input buffer and drains it; `HandleMessage` gives the
reply to each message it dispatches to `::send`, which may accept a part of it. `Answered` is what
reading and answering keep, over any number of calls: for each request consumed some bytes were
sent, and no complete request is left behind. What may be sent for a request is a parameter
(`allowed`), so that it serves for the beginnings of replies and for whole ones.
-/

set_option autoImplicit false
set_option relaxedAutoImplicit false

namespace Reactor.SingleReactor.Answering

open Library Buffer
open Reactor.Connection (bytesOf)
open Reactor.EchoService (answers echo)

/-- What the kernel accepts of the replies to some messages. -/
def accepted : List Bytes → List ℤ → Option (List Bytes)
  | [], [] => some []
  | message :: messages, writen :: writens =>
    if CanReturn (handleMessage message) writen then
      (accepted messages writens).map fun pieces ↦
        (handleMessage message).take writen.toNat :: pieces
    else none
  | _, _ => none

/-! ### Reading -/

/-- What a call of `getmessage` returns was in front, or is `" "`, with nothing complete there. -/
theorem next_of_getmessage {stale : Stale} {buffer rest : Buffer} {message : Bytes}
    (hcall : buffer.getmessage stale = .ok (message, rest)) :
    frameParser.next buffer.buf = some (message, rest.buf) ∨
      message = noMessage ∧ frameParser.next buffer.buf = none ∧ rest = buffer := by
  rcases getmessage_cases stale buffer with
    ⟨payload, left, hnext, hok⟩ | ⟨hnext, -, hok⟩ | ⟨-, fault, herror⟩
  · rw [hok] at hcall
    cases hcall
    exact .inl hnext
  · rw [hok] at hcall
    cases hcall
    exact .inr ⟨rfl, hnext, rfl⟩
  · rw [herror] at hcall
    cases hcall

/-- A drain that succeeded consumed frames, dispatched those other than `" "`, and left no complete
one behind unless a `" "` stopped it. -/
theorem drain_consumed {stale : ℕ → Stale} {count : ℕ} {buffer final : Buffer}
    {messages : List Bytes} (hdrain : Connection.drain stale count buffer = .ok (final, messages)) :
    ∃ consumed, frameParser.Advances buffer.buf consumed final.buf ∧
      messages = consumed.filter (fun message ↦ message ≠ noMessage) ∧
      (frameParser.next final.buf = none ∨ ∃ front, consumed = front ++ [noMessage]) := by
  -- The buffer gets shorter with every message.
  induction hsize : buffer.size using Nat.strongRecOn generalizing count buffer messages with
  | _ size ih =>
    rw [Connection.drain] at hdrain
    split at hdrain
    · cases hdrain
    · rename_i message rest hcall
      have hfront := next_of_getmessage hcall
      split at hdrain
      · rename_i hmessage
        subst hmessage
        cases hdrain
        rcases hfront with hnext | ⟨-, hnext, rfl⟩
        · exact ⟨[noMessage], .cons hnext (.refl _), by simp, .inr ⟨[], rfl⟩⟩
        · exact ⟨[], .refl _, rfl, .inl hnext⟩
      · rename_i hmessage
        split at hdrain
        · cases hdrain
        · rename_i after later hrest
          cases hdrain
          have hshorter := getmessage_shrinks hcall hmessage
          have hnext := hfront.resolve_right fun hnone ↦ hmessage hnone.1
          obtain ⟨consumed, hadvance, hlater, hstopped⟩ :=
            ih rest.size (hsize ▸ hshorter) hrest rfl
          refine ⟨message :: consumed, .cons hnext hadvance, ?_, hstopped.imp_right ?_⟩
          · rw [List.filter_cons, if_pos (by simpa using hmessage), ← hlater]
          · rintro ⟨front, rfl⟩
            exact ⟨message :: front, rfl⟩

/-- A call of `onmessage` that ends with `EAGAIN` drains what it has read. -/
theorem onmessage_drained {stale : ℕ → Stale} {results : List ReadResult} {next : Connection}
    {messages : List Bytes} : ∀ {connection : Connection},
      connection.onmessage stale results = .ok (.drained next messages) →
        ∃ inputbuffer, Connection.drain stale 0
            (connection.inputbuffer.append (bytesOf results)) = .ok (inputbuffer, messages) ∧
          next = { connection with inputbuffer } := by
  induction results with
  | nil =>
    intro connection hcall
    cases hcall
  | cons result rest ih =>
    intro connection hcall
    cases result with
    | data chunk =>
      obtain ⟨inputbuffer, hdrain, hnext⟩ := ih hcall
      refine ⟨inputbuffer, ?_, hnext⟩
      rw [bytesOf, ← append_append]
      exact hdrain
    | eof => cases hcall
    | failed errno =>
      rw [Connection.onmessage] at hcall
      split_ifs at hcall with hintr hagain
      · have hother : ¬ (errno = EAGAIN ∨ errno = EWOULDBLOCK) := by
          rw [hintr]
          decide
        rw [bytesOf, if_neg hother]
        exact ih hcall
      · split at hcall
        · cases hcall
        · rename_i inputbuffer found hdrain
          cases hcall
          rw [bytesOf, if_pos hagain, append_nil]
          exact ⟨inputbuffer, hdrain, rfl⟩
      · rw [bytesOf, if_neg hagain]
        exact ih hcall

/-! ### What is sent -/

/-- What is accepted of a reply is its beginning. -/
theorem forall₂_accepted {messages : List Bytes} :
    ∀ {writens : List ℤ} {pieces : List Bytes}, accepted messages writens = some pieces →
      List.Forall₂ (fun message piece ↦ piece <+: handleMessage message) messages pieces := by
  induction messages with
  | nil =>
    intro writens pieces haccepted
    cases writens <;> cases haccepted
    exact .nil
  | cons message rest ih =>
    intro writens pieces haccepted
    cases writens with
    | nil => cases haccepted
    | cons writen writens =>
      rw [accepted, Option.ite_none_right_eq_some] at haccepted
      obtain ⟨later, hlater, rfl⟩ := Option.map_eq_some_iff.mp haccepted.2
      exact .cons (List.take_prefix _ _) (ih hlater)

/-- What is accepted when `::send` accepts whole replies. -/
theorem accepted_whole {messages : List Bytes} : ∀ {pieces : List Bytes},
    accepted messages (messages.map fun message ↦ ((handleMessage message).length : ℤ)) =
      some pieces →
        List.Forall₂ (fun message piece ↦ piece = handleMessage message) messages pieces := by
  induction messages with
  | nil =>
    intro pieces haccepted
    cases haccepted
    exact .nil
  | cons message rest ih =>
    intro pieces haccepted
    rw [List.map_cons, accepted, Option.ite_none_right_eq_some] at haccepted
    obtain ⟨later, hlater, rfl⟩ := Option.map_eq_some_iff.mp haccepted.2
    refine .cons ?_ (ih hlater)
    rw [Int.toNat_natCast, List.take_length]

/-- Whole replies are the answers. -/
theorem flatMap_of_forall₂ {messages pieces : List Bytes}
    (hpieces : List.Forall₂ (fun message piece ↦ piece = handleMessage message) messages pieces) :
    messages.flatMap ReplyPipeline.handledata = pieces.flatten := by
  induction hpieces with
  | nil => rfl
  | cons hpiece _ ih =>
    rw [List.flatMap_cons, List.flatten_cons, ih, hpiece]
    rfl

/-! ### The requests of a connection -/

/-- The requests of a stream that are answered. -/
def requests (input : Bytes) : List Bytes :=
  (frameParser.items input).filter fun message ↦ message ≠ noMessage

section Requests

variable {allowed : Bytes → Bytes → Prop} {received sent left : Bytes}

/-- How far the requests received on a connection have come: some have been consumed, and for each
something was sent that is `allowed`; and no complete one is left unless a `" "` came last. -/
structure Answered (allowed : Bytes → Bytes → Prop) (received sent left : Bytes) : Prop where
  stream : ∃ consumed pieces, frameParser.Advances received consumed left ∧
    List.Forall₂ allowed (consumed.filter fun message ↦ message ≠ noMessage) pieces ∧
      sent = pieces.flatten ∧
        (frameParser.next left = none ∨ ∃ front, consumed = front ++ [noMessage])

theorem Answered.nil (allowed : Bytes → Bytes → Prop) : Answered allowed [] [] [] :=
  ⟨[], [], .refl _, .nil, rfl, .inl rfl⟩

/-- Reading more and answering it. -/
theorem Answered.read {more : Bytes} {stale : ℕ → Stale} {final : Buffer}
    {messages pieces : List Bytes}
    (hanswered : Answered allowed received sent left)
    (hdrain : Connection.drain stale 0 ⟨left ++ more⟩ = .ok (final, messages))
    (hpieces : List.Forall₂ allowed messages pieces) :
    Answered allowed (received ++ more) (sent ++ pieces.flatten) final.buf := by
  obtain ⟨earlier, before, hadvance, hbefore, hsent, -⟩ := hanswered.stream
  obtain ⟨consumed, hnew, hmessages, hstopped⟩ := drain_consumed hdrain
  refine ⟨earlier ++ consumed, before ++ pieces, (hadvance.append more).trans hnew, ?_, ?_, ?_⟩
  · rw [List.filter_append, ← hmessages]
    exact List.rel_append hbefore hpieces
  · rw [hsent, List.flatten_append]
  · refine hstopped.imp_right ?_
    rintro ⟨front, rfl⟩
    exact ⟨earlier ++ front, (List.append_assoc _ _ _).symm⟩

/-- No complete request is left unless there was a `" "`. -/
theorem Answered.items_left (hanswered : Answered allowed received sent left)
    (hnot : noMessage ∉ frameParser.items received) : frameParser.items left = [] := by
  obtain ⟨consumed, pieces, hadvance, -, -, hstopped⟩ := hanswered.stream
  refine StreamParser.items_of_none (hstopped.resolve_right ?_)
  rintro ⟨front, rfl⟩
  apply hnot
  rw [hadvance.items_eq]
  simp

/-- The pieces sent belong to the first requests, and to all when none is `" "`. -/
theorem Answered.pieces (hanswered : Answered allowed received sent left) :
    ∃ pieces, List.Forall₂ allowed ((requests received).take pieces.length) pieces ∧
      sent = pieces.flatten ∧
        (noMessage ∉ frameParser.items received → pieces.length = (requests received).length) := by
  obtain ⟨consumed, pieces, hadvance, hpieces, hsent, -⟩ := hanswered.stream
  have hrequests : requests received = (consumed.filter fun message ↦ message ≠ noMessage) ++
      (frameParser.items left).filter fun message ↦ message ≠ noMessage := by
    rw [requests, hadvance.items_eq, List.filter_append]
  refine ⟨pieces, ?_, hsent, fun hnot ↦ ?_⟩
  · rw [hrequests, List.take_left' hpieces.length_eq]
    exact hpieces
  · rw [hrequests, hanswered.items_left hnot, List.filter_nil, List.append_nil, hpieces.length_eq]

/-- So the echo of what was received is what was sent, and then the answers to what is left. -/
theorem Answered.echo_eq
    (hanswered : Answered (fun message piece ↦ piece = handleMessage message) received sent left) :
    echo received = sent ++ answers (frameParser.items left) := by
  obtain ⟨consumed, pieces, hadvance, hpieces, hsent, -⟩ := hanswered.stream
  rw [hsent, ← flatMap_of_forall₂ hpieces, echo, hadvance.items_eq, EchoService.answers_append]
  rfl

end Requests

end Reactor.SingleReactor.Answering
