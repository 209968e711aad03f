import QuantTrading.Foundation.RingBuffer
import QuantTrading.Foundation.Transition
import QuantTrading.Utils.CMemory

/-! # The message queue

The queue between the network thread and the workers: two parallel arrays, one
of message copies and one of clients, with a common head and tail. Both ends are
used under `queue_lock`, so the calls on the queue happen one after the other,
whoever makes them.
-/

namespace QuantTrading

variable {Client : Type}

/-- The fields of `struct ServerHandlers` that make up the queue. A slot of an
array is `none` while it holds `NULL`. -/
structure MessageQueue (Client : Type) where
  messageQueue : Nat → Option CString
  clientQueue : Nat → Option Client
  queueSize : Nat
  queueHead : Nat
  queueTail : Nat

namespace MessageQueue

/-- The queue `server_handlers_create` sets up. -/
def create (queueSize : Nat) : MessageQueue Client where
  messageQueue := fun _ => none
  clientQueue := fun _ => none
  queueSize := queueSize
  queueHead := 0
  queueTail := 0

/-- Store a message copy and its client at the tail. -/
def push (queue : MessageQueue Client) (client : Client) (copy : CString) : MessageQueue Client :=
  { queue with
    messageQueue := Function.update queue.messageQueue queue.queueTail (some copy)
    clientQueue := Function.update queue.clientQueue queue.queueTail (some client)
    queueTail := (queue.queueTail + 1) % queue.queueSize }

/-- Move the head; the slot keeps its old contents. -/
def pop (queue : MessageQueue Client) : MessageQueue Client :=
  { queue with queueHead := (queue.queueHead + 1) % queue.queueSize }

/-- `server_handlers_process_message`: the return code and the queue afterwards.
The length is only logged. -/
def processMessage (queue : MessageQueue Client) (client : Client) (message : List Char)
    (_len : Nat) : Except Fault (Int × MessageQueue Client) :=
  if (queue.queueTail + 1) % queue.queueSize = queue.queueHead then
    .ok (-1, queue)
  else do
    -- strdup
    let copy ← readText message
    .ok (0, queue.push client copy)

/-- `dequeue_message` while the workers are running: the message and the client it
returns, `none` while it waits. -/
def dequeueMessage (queue : MessageQueue Client) :
    Option ((Option CString × Option Client) × MessageQueue Client) :=
  if queue.queueHead = queue.queueTail then none
  else
    some ((queue.messageQueue queue.queueHead, queue.clientQueue queue.queueHead), queue.pop)

/-- The slots from the head to the tail, as pairs. -/
def waiting (queue : MessageQueue Client) : List (Option CString × Option Client) :=
  RingBuffer.contents queue.queueSize
    (fun slot => (queue.messageQueue slot, queue.clientQueue slot)) queue.queueHead queue.queueTail

/-- Both indices are in range. -/
structure Bounded (queue : MessageQueue Client) : Prop where
  head_lt : queue.queueHead < queue.queueSize
  tail_lt : queue.queueTail < queue.queueSize

theorem create_bounded {queueSize : Nat} (hsize : 1 ≤ queueSize) :
    (create queueSize : MessageQueue Client).Bounded :=
  ⟨hsize, hsize⟩

theorem create_waiting {queueSize : Nat} (hsize : 1 ≤ queueSize) :
    (create queueSize : MessageQueue Client).waiting = [] :=
  RingBuffer.contents_of_empty _ hsize

namespace Bounded

variable {queue : MessageQueue Client} (hqueue : queue.Bounded)
include hqueue

theorem waiting_length_lt : queue.waiting.length < queue.queueSize := by
  rw [waiting, RingBuffer.length_contents]
  exact RingBuffer.occupied_lt hqueue.head_lt hqueue.tail_lt

/-- The test of `server_handlers_process_message`. -/
theorem full_iff : (queue.queueTail + 1) % queue.queueSize = queue.queueHead ↔
    queue.waiting.length = queue.queueSize - 1 := by
  rw [waiting, RingBuffer.length_contents]
  exact RingBuffer.next_eq_head_iff hqueue.head_lt hqueue.tail_lt

/-- The test of `dequeue_message`. -/
theorem empty_iff : queue.queueHead = queue.queueTail ↔ queue.waiting = [] := by
  rw [← List.length_eq_zero_iff, waiting, RingBuffer.length_contents]
  exact RingBuffer.head_eq_tail_iff hqueue.head_lt hqueue.tail_lt

/-- A call on a full queue is refused. -/
theorem processMessage_full (hfull : queue.waiting.length = queue.queueSize - 1) (client : Client)
    (message : List Char) (len : Nat) :
    queue.processMessage client message len = .ok (-1, queue) :=
  if_pos (hqueue.full_iff.mpr hfull)

/-- A call on a queue with room appends the copy together with its client. -/
theorem processMessage_room (hroom : queue.waiting.length ≠ queue.queueSize - 1)
    (client : Client) {message : List Char} {copy : CString} (hread : readText message = .ok copy)
    (len : Nat) :
    queue.processMessage client message len = .ok (0, queue.push client copy) ∧
      (queue.push client copy).Bounded ∧
      (queue.push client copy).waiting = queue.waiting ++ [(some copy, some client)] := by
  have hnotFull := fun hfull => hroom (hqueue.full_iff.mp hfull)
  have hsize : 0 < queue.queueSize := Nat.zero_lt_of_lt hqueue.head_lt
  refine ⟨?_, ⟨hqueue.head_lt, RingBuffer.next_lt hsize _⟩, ?_⟩
  · rw [processMessage, if_neg hnotFull, hread]
    rfl
  · have hpush := RingBuffer.contents_push hqueue.head_lt hqueue.tail_lt hnotFull
      (fun slot => (queue.messageQueue slot, queue.clientQueue slot)) (some copy, some client)
    rw [waiting, waiting, ← hpush]
    congr 1
    -- the two arrays are written at the same slot
    funext slot
    by_cases hslot : slot = queue.queueTail
    · subst hslot
      simp [push]
    · simp [push, Function.update_of_ne hslot]

theorem dequeueMessage_empty (hempty : queue.waiting = []) : queue.dequeueMessage = none :=
  if_pos (hqueue.empty_iff.mpr hempty)

/-- A dequeue takes the first waiting pair. -/
theorem dequeueMessage_cons {first : Option CString × Option Client}
    {rest : List (Option CString × Option Client)} (hwaiting : queue.waiting = first :: rest) :
    queue.dequeueMessage = some (first, queue.pop) ∧ queue.pop.Bounded ∧
      queue.pop.waiting = rest := by
  have hne : queue.queueHead ≠ queue.queueTail := by
    intro heq
    rw [hqueue.empty_iff.mp heq] at hwaiting
    exact List.cons_ne_nil _ _ hwaiting.symm
  have hpop := RingBuffer.contents_pop hqueue.head_lt hqueue.tail_lt hne
    (fun slot => (queue.messageQueue slot, queue.clientQueue slot))
  obtain ⟨hfirst, hrest⟩ := List.cons.inj (hpop.symm.trans hwaiting)
  have hsize : 0 < queue.queueSize := Nat.zero_lt_of_lt hqueue.head_lt
  refine ⟨?_, ⟨RingBuffer.next_lt hsize _, hqueue.tail_lt⟩, hrest⟩
  rw [dequeueMessage, if_neg hne, ← hfirst]

end Bounded

end MessageQueue

/-! ## Histories of the queue -/

/-- A call on the queue; `dequeue` names the worker that makes it. -/
inductive QueueCall (Client : Type) where
  | processMessage (client : Client) (message : List Char) (len : Nat) : QueueCall Client
  | dequeueMessage (worker : Nat) : QueueCall Client

/-- A queue with the pairs whose enqueue has returned 0 and the pairs dequeued so
far. -/
structure QueueHistory (Client : Type) where
  queue : MessageQueue Client
  accepted : List (CString × Client)
  dequeued : List (Option CString × Option Client)

namespace QueueHistory

def create (queueSize : Nat) : QueueHistory Client where
  queue := MessageQueue.create queueSize
  accepted := []
  dequeued := []

/-- One call on the queue. A message that is not a C string stops the process, and
a worker that finds the queue empty waits. -/
def step (history : QueueHistory Client) : QueueCall Client → QueueHistory Client
  | .processMessage client message len =>
      match history.queue.processMessage client message len, readText message with
      | .ok (0, queue), .ok copy =>
          { history with queue := queue, accepted := history.accepted ++ [(copy, client)] }
      | _, _ => history
  | .dequeueMessage _ =>
      match history.queue.dequeueMessage with
      | some (pair, queue) =>
          { history with queue := queue, dequeued := history.dequeued ++ [pair] }
      | none => history

/-- An enqueue dequeues nothing. -/
theorem step_processMessage_dequeued (history : QueueHistory Client) (client : Client)
    (message : List Char) (len : Nat) :
    (history.step (.processMessage client message len)).dequeued = history.dequeued := by
  unfold step
  dsimp only
  split <;> rfl

theorem step_dequeueMessage {history : QueueHistory Client}
    {pair : Option CString × Option Client} {queue : MessageQueue Client}
    (hdequeue : history.queue.dequeueMessage = some (pair, queue)) (worker : Nat) :
    history.step (.dequeueMessage worker) =
      { history with queue := queue, dequeued := history.dequeued ++ [pair] } := by
  rw [step, hdequeue]

/-- An accepted pair as it stands in the arrays. -/
def stored (pair : CString × Client) : Option CString × Option Client :=
  (some pair.1, some pair.2)

/-- The queue is a FIFO: the pairs dequeued and the pairs waiting are the accepted
ones, in order. -/
structure Fifo (queueSize : Nat) (history : QueueHistory Client) : Prop where
  size_eq : history.queue.queueSize = queueSize
  bounded : history.queue.Bounded
  accepted_eq : history.dequeued ++ history.queue.waiting = history.accepted.map stored

theorem create_fifo {queueSize : Nat} (hsize : 1 ≤ queueSize) :
    Fifo queueSize (create queueSize : QueueHistory Client) := by
  refine ⟨rfl, MessageQueue.create_bounded hsize, ?_⟩
  rw [create, MessageQueue.create_waiting hsize]
  rfl

theorem Fifo.step {queueSize : Nat} {history : QueueHistory Client}
    (hfifo : Fifo queueSize history) (call : QueueCall Client) :
    Fifo queueSize (history.step call) := by
  have hqueue := hfifo.bounded
  cases call with
  | processMessage client message len =>
      unfold QueueHistory.step
      dsimp only
      by_cases hfull : history.queue.waiting.length = history.queue.queueSize - 1
      · rw [hqueue.processMessage_full hfull]
        exact hfifo
      · cases hread : readText message with
        | error fault =>
            split
            · rename_i hclash
              cases hclash
            · exact hfifo
        | ok copy =>
            obtain ⟨hcall, hbounded, hwaiting⟩ :=
              hqueue.processMessage_room hfull client hread len
            rw [hcall]
            refine ⟨hfifo.size_eq, hbounded, ?_⟩
            change history.dequeued ++ (history.queue.push client copy).waiting =
              (history.accepted ++ [(copy, client)]).map stored
            rw [hwaiting, ← List.append_assoc, hfifo.accepted_eq, List.map_append]
            rfl
  | dequeueMessage worker =>
      unfold QueueHistory.step
      cases hwaiting : history.queue.waiting with
      | nil =>
          rw [hqueue.dequeueMessage_empty hwaiting]
          exact hfifo
      | cons first rest =>
          obtain ⟨hcall, hbounded, hrest⟩ := hqueue.dequeueMessage_cons hwaiting
          rw [hcall]
          refine ⟨hfifo.size_eq, hbounded, ?_⟩
          dsimp only
          rw [hrest, List.append_assoc, List.singleton_append, ← hwaiting]
          exact hfifo.accepted_eq

theorem run_fifo {queueSize : Nat} (hsize : 1 ≤ queueSize) (calls : List (QueueCall Client)) :
    Fifo queueSize (Transition.run step (create queueSize) calls) :=
  Transition.run_invariant step (Fifo queueSize) (fun _ call h => h.step call)
    (create_fifo hsize) calls

/-- The ring buffer refines a FIFO of capacity `queue_size - 1`, over any calls:
what was dequeued and what waits is what was accepted, in order and each message
with its client; a call is refused exactly when the queue is full, and then
changes nothing; and a dequeue takes the pair that waits longest. -/
theorem run_refines_fifo {queueSize : Nat} (hsize : 1 ≤ queueSize)
    (calls : List (QueueCall Client)) :
    let history := Transition.run step (create queueSize) calls
    let queue := history.queue
    (queue.queueHead < queueSize ∧ queue.queueTail < queueSize) ∧
    history.dequeued ++ queue.waiting = history.accepted.map stored ∧
    queue.waiting.length ≤ queueSize - 1 ∧
    (∀ client message len, nul ∈ message →
      (queue.waiting.length = queueSize - 1 →
        queue.processMessage client message len = .ok (-1, queue)) ∧
      (queue.waiting.length ≠ queueSize - 1 → ∃ queue',
        queue.processMessage client message len = .ok (0, queue') ∧ queue'.waiting =
          queue.waiting ++ [stored (message.takeWhile (· ≠ nul), client)])) ∧
    (queue.waiting = [] → queue.dequeueMessage = none) ∧
    ∀ first rest, queue.waiting = first :: rest → ∃ queue',
      queue.dequeueMessage = some (first, queue') ∧ queue'.waiting = rest := by
  intro history queue
  have hfifo : Fifo queueSize history := run_fifo hsize calls
  have hqueue : queue.Bounded := hfifo.bounded
  have hsizeEq : queue.queueSize = queueSize := hfifo.size_eq
  refine ⟨⟨hsizeEq ▸ hqueue.head_lt, hsizeEq ▸ hqueue.tail_lt⟩, hfifo.accepted_eq, ?_, ?_,
    hqueue.dequeueMessage_empty, ?_⟩
  · have hlt := hqueue.waiting_length_lt
    omega
  · intro client message len hnul
    rw [← hsizeEq]
    refine ⟨fun hfull => hqueue.processMessage_full hfull client message len, fun hroom => ?_⟩
    obtain ⟨hcall, _, hwaiting⟩ :=
      hqueue.processMessage_room hroom client (readText_of_terminated hnul) len
    exact ⟨_, hcall, hwaiting⟩
  · intro first rest hwaiting
    obtain ⟨hcall, _, hrest⟩ := hqueue.dequeueMessage_cons hwaiting
    exact ⟨_, hcall, hrest⟩

/-- A queue of two slots holds one message: the second is refused, and accepted
after a worker has taken the first. -/
theorem run_refines_fifo_two_slots :
    let history := Transition.run step (create 2 : QueueHistory Nat)
      [.processMessage 7 ['a', nul] 1, .processMessage 8 ['b', nul] 1, .dequeueMessage 0,
        .processMessage 8 ['b', nul] 1]
    history.dequeued ++ history.queue.waiting = history.accepted.map stored ∧
      history.accepted = [(['a'], 7), (['b'], 8)] ∧ history.dequeued = [(some ['a'], some 7)] :=
  ⟨(run_refines_fifo (by decide) _).2.1, by decide, by decide⟩

end QueueHistory

end QuantTrading
