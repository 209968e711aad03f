import QuantTrading.Server.Admission
import QuantTrading.Server.MessageQueue
import Mathlib.Data.List.Nodup

/-! # The worker pool

`server_handlers_start_workers` starts `thread_pool_size` workers. Each of them
repeats: dequeue a message, then handle it. The dequeues follow the order of the
queue, but nothing orders the handlers of messages that several workers hold at
the same time.

What handling a message does to the rest of the server is a parameter here.
-/

namespace QuantTrading

variable {Client : Type} {σ : Type*}

/-- A message that a worker has dequeued; the ticket counts the dequeues before. -/
structure HeldMessage (Client : Type) where
  ticket : Nat
  pair : Option CString × Option Client

/-- The queue with its history, what each worker holds, the tickets handled so far
in the order of handling, and the state that handling works on. -/
structure WorkerPool (Client : Type) (σ : Type*) where
  history : QueueHistory Client
  workers : Nat → Option (HeldMessage Client)
  handled : List Nat
  server : σ

/-- A step of the pool. -/
inductive PoolStep (Client : Type) where
  | enqueue (client : Client) (message : List Char) (len : Nat) : PoolStep Client
  | dequeue (worker : Nat) : PoolStep Client
  | handle (worker : Nat) : PoolStep Client

namespace WorkerPool

def create (queueSize : Nat) (server : σ) : WorkerPool Client σ where
  history := QueueHistory.create queueSize
  workers := fun _ => none
  handled := []
  server := server

/-- One step of a pool of `threadCount` workers. A worker that holds a message does
not dequeue, and a worker that holds none has nothing to handle. -/
def step (handle : σ → Option CString × Option Client → σ) (threadCount : Nat)
    (pool : WorkerPool Client σ) : PoolStep Client → WorkerPool Client σ
  | .enqueue client message len =>
      { pool with history := pool.history.step (.processMessage client message len) }
  | .dequeue worker =>
      match pool.workers worker, pool.history.queue.dequeueMessage with
      | none, some (pair, _) =>
          if worker < threadCount then
            { pool with
              history := pool.history.step (.dequeueMessage worker)
              workers := Function.update pool.workers worker
                (some { ticket := pool.history.dequeued.length, pair := pair }) }
          else pool
      | _, _ => pool
  | .handle worker =>
      match pool.workers worker with
      | some held =>
          { pool with
            workers := Function.update pool.workers worker none
            handled := pool.handled ++ [held.ticket]
            server := handle pool.server held.pair }
      | none => pool

/-- Messages of one client are handled in the order in which they were accepted. -/
def HandledInOrder (pool : WorkerPool Client σ) : Prop :=
  ∀ first second client, first < second →
    (pool.history.accepted[first]?).map Prod.snd = some client →
    (pool.history.accepted[second]?).map Prod.snd = some client →
    second ∈ pool.handled → pool.handled.idxOf first < pool.handled.idxOf second

/-- What the steps of the pool maintain. Every ticket handed out so far has been
handled or is held by one worker. -/
structure Coherent (handle : σ → Option CString × Option Client → σ) (queueSize threadCount : Nat)
    (start : σ) (pool : WorkerPool Client σ) : Prop where
  fifo : pool.history.Fifo queueSize
  handled_nodup : pool.handled.Nodup
  held_lt : ∀ worker held, pool.workers worker = some held → worker < threadCount
  held_pair : ∀ worker held, pool.workers worker = some held →
    pool.history.dequeued[held.ticket]? = some held.pair ∧ held.ticket ∉ pool.handled
  held_once : ∀ first second firstHeld secondHeld, pool.workers first = some firstHeld →
    pool.workers second = some secondHeld → firstHeld.ticket = secondHeld.ticket → first = second
  tickets : ∀ ticket, ticket < pool.history.dequeued.length ↔ ticket ∈ pool.handled ∨
    ∃ worker held, pool.workers worker = some held ∧ held.ticket = ticket
  server_eq : pool.server =
    (pool.handled.filterMap fun ticket => pool.history.dequeued[ticket]?).foldl handle start

theorem idxOf_range {count index : Nat} (hindex : index < count) :
    (List.range count).idxOf index = index := by
  have hget := List.nodup_range.idxOf_getElem index (by simpa using hindex)
  rwa [List.getElem_range] at hget

theorem filterMap_range_getElem? {β : Type*} (list : List β) (count : Nat) :
    ((List.range count).filterMap fun index => list[index]?) = list.take count := by
  induction count with
  | zero => rfl
  | succ count ih =>
      rw [List.range_succ, List.filterMap_append, ih, List.take_add_one]
      cases hget : list[count]? <;> simp [hget]

/-- After one worker has changed what it holds, a message is held by that worker or
was held before. -/
theorem held_of_update {workers : Nat → Option (HeldMessage Client)} {worker other : Nat}
    {value : Option (HeldMessage Client)} {held : HeldMessage Client}
    (hheld : Function.update workers worker value other = some held) :
    other = worker ∧ value = some held ∨ other ≠ worker ∧ workers other = some held := by
  rw [Function.update_apply] at hheld
  split_ifs at hheld with heq
  · exact Or.inl ⟨heq, hheld⟩
  · exact Or.inr ⟨heq, hheld⟩

namespace Coherent

variable {handle : σ → Option CString × Option Client → σ} {queueSize threadCount : Nat}
  {start : σ} {pool : WorkerPool Client σ}

theorem create (hsize : 1 ≤ queueSize) :
    Coherent handle queueSize threadCount start (WorkerPool.create queueSize start :
      WorkerPool Client σ) where
  fifo := QueueHistory.create_fifo hsize
  handled_nodup := List.nodup_nil
  held_lt := nofun
  held_pair := nofun
  held_once := nofun
  tickets := by simp [WorkerPool.create, QueueHistory.create]
  server_eq := rfl

variable (hpool : Coherent handle queueSize threadCount start pool)
include hpool

/-- A held ticket has been handed out. -/
theorem held_ticket_lt {worker : Nat} {held : HeldMessage Client}
    (hheld : pool.workers worker = some held) :
    held.ticket < pool.history.dequeued.length :=
  (List.getElem?_eq_some_iff.mp (hpool.held_pair worker held hheld).1).1

theorem enqueue (client : Client) (message : List Char) (len : Nat) :
    Coherent handle queueSize threadCount start
      (pool.step handle threadCount (.enqueue client message len)) := by
  have hsame := pool.history.step_processMessage_dequeued client message len
  exact
    { fifo := hpool.fifo.step (.processMessage client message len)
      handled_nodup := hpool.handled_nodup
      held_lt := hpool.held_lt
      held_pair := by
        rw [WorkerPool.step, hsame]
        exact hpool.held_pair
      held_once := hpool.held_once
      tickets := by
        rw [WorkerPool.step, hsame]
        exact hpool.tickets
      server_eq := by
        rw [WorkerPool.step, hsame]
        exact hpool.server_eq }

/-- An idle worker takes the next ticket. -/
theorem dequeue {worker : Nat} (hidle : pool.workers worker = none)
    (hworker : worker < threadCount) {pair : Option CString × Option Client}
    {queue : MessageQueue Client}
    (hdequeue : pool.history.queue.dequeueMessage = some (pair, queue)) :
    Coherent handle queueSize threadCount start
      { pool with
        history := pool.history.step (.dequeueMessage worker)
        workers := Function.update pool.workers worker
          (some { ticket := pool.history.dequeued.length, pair := pair }) } := by
  have hfifo := hpool.fifo.step (.dequeueMessage worker)
  rw [QueueHistory.step_dequeueMessage hdequeue] at hfifo ⊢
  -- what the workers hold: the new ticket, or what they held before
  have hcases : ∀ {other : Nat} {held : HeldMessage Client},
      Function.update pool.workers worker
        (some { ticket := pool.history.dequeued.length, pair := pair }) other = some held →
      other = worker ∧ held = { ticket := pool.history.dequeued.length, pair := pair } ∨
        other ≠ worker ∧ pool.workers other = some held :=
    fun hheld => (held_of_update hheld).imp_left fun hnew =>
      ⟨hnew.1, (Option.some.inj hnew.2).symm⟩
  have hhandled : ∀ ticket ∈ pool.handled, ticket < pool.history.dequeued.length :=
    fun ticket hticket => (hpool.tickets ticket).mpr (Or.inl hticket)
  refine ⟨hfifo, hpool.handled_nodup, ?_, ?_, ?_, ?_, ?_⟩
  · intro other held hheld
    rcases hcases hheld with ⟨rfl, _⟩ | ⟨_, hold⟩
    · exact hworker
    · exact hpool.held_lt other held hold
  · intro other held hheld
    rcases hcases hheld with ⟨_, rfl⟩ | ⟨_, hold⟩
    · exact ⟨List.getElem?_concat_length, fun hmem => (hhandled _ hmem).false⟩
    · refine ⟨?_, (hpool.held_pair other held hold).2⟩
      rw [List.getElem?_append_left (hpool.held_ticket_lt hold)]
      exact (hpool.held_pair other held hold).1
  · intro first second firstHeld secondHeld hfirst hsecond heq
    rcases hcases hfirst with ⟨rfl, rfl⟩ | ⟨_, hfirstOld⟩ <;>
      rcases hcases hsecond with ⟨rfl, rfl⟩ | ⟨_, hsecondOld⟩
    · rfl
    · exact absurd heq (hpool.held_ticket_lt hsecondOld).ne'
    · exact absurd heq (hpool.held_ticket_lt hfirstOld).ne
    · exact hpool.held_once first second firstHeld secondHeld hfirstOld hsecondOld heq
  · intro ticket
    rw [List.length_append, List.length_singleton, Nat.lt_succ_iff_lt_or_eq, hpool.tickets ticket]
    constructor
    · rintro ((hmem | ⟨other, held, hheld, hticket⟩) | rfl)
      · exact Or.inl hmem
      · refine Or.inr ⟨other, held, ?_, hticket⟩
        have hne : other ≠ worker := by
          rintro rfl
          exact absurd (hidle.symm.trans hheld) nofun
        simpa [Function.update_of_ne hne] using hheld
      · exact Or.inr ⟨worker, _, Function.update_self .., rfl⟩
    · rintro (hmem | ⟨other, held, hheld, rfl⟩)
      · exact Or.inl (Or.inl hmem)
      · rcases hcases hheld with ⟨_, rfl⟩ | ⟨_, hold⟩
        · exact Or.inr rfl
        · exact Or.inl (Or.inr ⟨other, held, hold, rfl⟩)
  · rw [hpool.server_eq]
    congr 1
    apply List.filterMap_congr
    intro ticket hticket
    rw [List.getElem?_append_left (hhandled ticket hticket)]

/-- A worker handles the message it holds. -/
theorem handleHeld {worker : Nat} {held : HeldMessage Client}
    (hheld : pool.workers worker = some held) :
    Coherent handle queueSize threadCount start
      { pool with
        workers := Function.update pool.workers worker none
        handled := pool.handled ++ [held.ticket]
        server := handle pool.server held.pair } := by
  obtain ⟨hpair, hnew⟩ := hpool.held_pair worker held hheld
  have hcases : ∀ {other : Nat} {otherHeld : HeldMessage Client},
      Function.update pool.workers worker none other = some otherHeld →
      other ≠ worker ∧ pool.workers other = some otherHeld :=
    fun hother => (held_of_update hother).resolve_left fun hnone => absurd hnone.2 nofun
  refine ⟨hpool.fifo, ?_, ?_, ?_, ?_, ?_, ?_⟩
  · exact hpool.handled_nodup.append (List.nodup_singleton _) (List.disjoint_singleton.mpr hnew)
  · intro other otherHeld hother
    exact hpool.held_lt other otherHeld (hcases hother).2
  · intro other otherHeld hother
    obtain ⟨hne, hold⟩ := hcases hother
    obtain ⟨hotherPair, hotherNew⟩ := hpool.held_pair other otherHeld hold
    refine ⟨hotherPair, fun hmem => ?_⟩
    rcases List.mem_append.mp hmem with hmem | hmem
    · exact hotherNew hmem
    · exact hne (hpool.held_once other worker otherHeld held hold hheld
        (List.mem_singleton.mp hmem))
  · intro first second firstHeld secondHeld hfirst hsecond
    exact hpool.held_once first second firstHeld secondHeld (hcases hfirst).2 (hcases hsecond).2
  · intro ticket
    rw [hpool.tickets ticket, List.mem_append, List.mem_singleton]
    constructor
    · rintro (hmem | ⟨other, otherHeld, hother, rfl⟩)
      · exact Or.inl (Or.inl hmem)
      · by_cases heq : other = worker
        · subst heq
          obtain rfl : held = otherHeld := Option.some.inj (hheld.symm.trans hother)
          exact Or.inl (Or.inr rfl)
        · exact Or.inr ⟨other, otherHeld, by simpa [Function.update_of_ne heq] using hother, rfl⟩
    · rintro ((hmem | rfl) | ⟨other, otherHeld, hother, rfl⟩)
      · exact Or.inl hmem
      · exact Or.inr ⟨worker, held, hheld, rfl⟩
      · exact Or.inr ⟨other, otherHeld, (hcases hother).2, rfl⟩
  · rw [List.filterMap_append, List.foldl_append, ← hpool.server_eq]
    simp [hpair]

theorem step (action : PoolStep Client) :
    Coherent handle queueSize threadCount start (pool.step handle threadCount action) := by
  cases action with
  | enqueue client message len => exact hpool.enqueue client message len
  | dequeue worker =>
      unfold WorkerPool.step
      dsimp only
      split
      · rename_i pair queue hidle hdequeue
        split_ifs with hworker
        · exact hpool.dequeue hidle hworker hdequeue
        · exact hpool
      · exact hpool
  | handle worker =>
      unfold WorkerPool.step
      dsimp only
      split
      · rename_i held hheld
        exact hpool.handleHeld hheld
      · exact hpool

/-- Messages dequeued before a held one are handled or held by another worker. -/
theorem earlier_handled_or_held {worker : Nat} {held : HeldMessage Client}
    (hheld : pool.workers worker = some held) {earlier : Nat} (hearlier : earlier < held.ticket) :
    earlier ∈ pool.handled ∨ ∃ other otherHeld, other ≠ worker ∧ other < threadCount ∧
      pool.workers other = some otherHeld ∧ otherHeld.ticket = earlier := by
  have hlt := hearlier.trans (hpool.held_ticket_lt hheld)
  rcases (hpool.tickets earlier).mp hlt with hmem | ⟨other, otherHeld, hother, rfl⟩
  · exact Or.inl hmem
  · refine Or.inr ⟨other, otherHeld, ?_, hpool.held_lt other otherHeld hother, hother, rfl⟩
    rintro rfl
    obtain rfl : held = otherHeld := Option.some.inj (hheld.symm.trans hother)
    exact hearlier.false

/-- The only worker of a pool holds the first message that is not handled. -/
theorem ticket_eq_of_one_worker (hone : threadCount ≤ 1)
    (hsequence : pool.handled = List.range pool.handled.length) {worker : Nat}
    {held : HeldMessage Client} (hheld : pool.workers worker = some held) :
    held.ticket = pool.handled.length := by
  have hnew := (hpool.held_pair worker held hheld).2
  rw [hsequence, List.mem_range, not_lt] at hnew
  refine hnew.antisymm' (not_lt.mp fun hlt => ?_)
  rcases hpool.earlier_handled_or_held hheld hlt with hmem | ⟨other, _, hne, hother, _⟩
  · rw [hsequence, List.mem_range] at hmem
    simp at hmem
  · have hworker := hpool.held_lt worker held hheld
    omega

end Coherent

section Runs

variable (handle : σ → Option CString × Option Client → σ) {queueSize : Nat}
  (hsize : 1 ≤ queueSize) (threadCount : Nat) (start : σ) (steps : List (PoolStep Client))
include hsize

theorem run_coherent :
    Coherent handle queueSize threadCount start
      (Transition.run (step handle threadCount) (create queueSize start) steps) :=
  Transition.run_invariant (step handle threadCount)
    (Coherent handle queueSize threadCount start) (fun _ action h => h.step action)
    (Coherent.create hsize) steps

/-- A single worker handles the messages in the order of their tickets. -/
theorem run_in_sequence (hone : threadCount ≤ 1) :
    let pool := Transition.run (step handle threadCount) (create queueSize start) steps
    pool.handled = List.range pool.handled.length := by
  refine (Transition.run_invariant (step handle threadCount)
    (fun pool => Coherent handle queueSize threadCount start pool ∧
      pool.handled = List.range pool.handled.length) ?_
    ⟨Coherent.create hsize, rfl⟩ steps).2
  rintro pool action ⟨hpool, hsequence⟩
  refine ⟨hpool.step action, ?_⟩
  cases action with
  | enqueue client message len => exact hsequence
  | dequeue worker =>
      unfold step
      dsimp only
      split
      · split_ifs <;> exact hsequence
      · exact hsequence
  | handle worker =>
      unfold step
      dsimp only
      split
      · rename_i held hheld
        rw [hpool.ticket_eq_of_one_worker hone hsequence hheld, List.length_append,
          List.length_singleton, List.range_succ, ← hsequence]
      · exact hsequence

end Runs

/-- In every run of a pool each message is handled at most once. A worker holds the
message accepted at its ticket, and the messages accepted before that one are
handled or held by another worker. A single worker handles the messages in order,
with the effect of handling them one after the other. -/
theorem run_handling_order (handle : σ → Option CString × Option Client → σ) {queueSize : Nat}
    (hsize : 1 ≤ queueSize) (threadCount : Nat) (start : σ) (steps : List (PoolStep Client)) :
    let pool := Transition.run (step handle threadCount) (create queueSize start) steps
    pool.handled.Nodup ∧
    (∀ worker held, pool.workers worker = some held →
      (pool.history.accepted[held.ticket]?).map QueueHistory.stored = some held.pair ∧
      ∀ earlier < held.ticket, earlier ∈ pool.handled ∨
        ∃ other otherHeld, other ≠ worker ∧ other < threadCount ∧
          pool.workers other = some otherHeld ∧ otherHeld.ticket = earlier) ∧
    (threadCount ≤ 1 → pool.HandledInOrder ∧
      pool.server = ((pool.history.accepted.take pool.handled.length).map
        QueueHistory.stored).foldl handle start) := by
  intro pool
  have hpool : Coherent handle queueSize threadCount start pool :=
    run_coherent handle hsize threadCount start steps
  have haccepted := hpool.fifo.accepted_eq
  refine ⟨hpool.handled_nodup, ?_, ?_⟩
  · intro worker held hheld
    refine ⟨?_, fun earlier hearlier => hpool.earlier_handled_or_held hheld hearlier⟩
    rw [← List.getElem?_map, ← haccepted, List.getElem?_append_left (hpool.held_ticket_lt hheld)]
    exact (hpool.held_pair worker held hheld).1
  · intro hone
    have hsequence : pool.handled = List.range pool.handled.length :=
      run_in_sequence handle hsize threadCount start steps hone
    refine ⟨?_, ?_⟩
    · intro first second client hlt _ _ hsecond
      rw [hsequence, List.mem_range] at hsecond
      rw [hsequence, idxOf_range (hlt.trans hsecond), idxOf_range hsecond]
      exact hlt
    · have hle : pool.handled.length ≤ pool.history.dequeued.length := by
        apply Nat.le_of_not_lt
        intro hlt
        have hmem : pool.history.dequeued.length ∈ pool.handled := by
          rw [hsequence]
          exact List.mem_range.mpr hlt
        exact (((hpool.tickets _).mpr (Or.inl hmem))).false
      rw [hpool.server_eq, List.map_take, ← haccepted, List.take_append_of_le_length hle, hsequence,
        filterMap_range_getElem?, List.length_range]

/-- The handling of the workers of the server: the handlers and what they have sent. -/
def workerHandle {α : Type} [LT α] [DecidableLT α] [BEq α] (cjson : CJson α)
    (frame : WorkerFrame α) (state : Except Fault (ServerHandlers α × List (Response α)))
    (pair : Option CString × Option Client) :
    Except Fault (ServerHandlers α × List (Response α)) :=
  match state, pair.1 with
  | .ok (handlers, sent), some message =>
      (handlers.work cjson { message := message, frame := frame }).map fun result =>
        (result.1, sent ++ result.2)
  | state, _ => state

/-- A cancel message for the order of `placeText`. -/
def cancelText : CString :=
  ("\x7b\n\t\"type\":\t2,\n\t\"order_id\":\t\"O1\",\n" ++
    "\t\"symbol\":\t\"AAPL\",\n\t\"is_buy\":\ttrue\n\x7d").toList

/-- The value of that text. -/
def cancelItem : Json ℚ :=
  .object [("type".toList, .number 2), ("order_id".toList, .string "O1".toList),
    ("symbol".toList, .string "AAPL".toList), ("is_buy".toList, .bool true)]

/-- A pool of some workers to which client 7 sends a place and then a cancel message. -/
def placeThenCancel (threadCount : Nat) (schedule : List (PoolStep Nat)) :
    WorkerPool Nat (Except Fault (ServerHandlers ℚ × List (Response ℚ))) :=
  Transition.run
    (step (workerHandle
      (CJson.table [(placeText "5", placeItem 5), (cancelText, cancelItem)] (placeText "5"))
      { created := 0, confirmed := 0, stack := .zero 0 }) threadCount)
    (create 10
      (.ok (ServerHandlers.create (fun _ => Order.sample "" 0 0 true 0) (some ⟨0⟩), [])))
    ([.enqueue 7 (placeText "5" ++ [nul]) (placeText "5").length,
      .enqueue 7 (cancelText ++ [nul]) cancelText.length] ++ schedule)

/-- One worker handles the place message first. -/
theorem run_handling_order_one_worker :
    let pool := placeThenCancel 1 [.dequeue 0, .dequeue 1, .handle 1, .handle 0, .dequeue 0,
      .handle 0]
    pool.HandledInOrder ∧ pool.handled = [0, 1] :=
  ⟨((run_handling_order _ (by decide) 1 _ _).2.2 le_rfl).1, by decide +kernel⟩

/-- Two workers hold the two messages, and the cancel message is handled first: it is
answered with an error, although its order was sent before. -/
theorem cancel_overtakes_place :
    let pool := placeThenCancel 2 [.dequeue 0, .dequeue 1, .handle 1, .handle 0]
    ¬ pool.HandledInOrder ∧ pool.handled = [1, 0] ∧
      pool.server.map (fun state => state.2.head?) =
        .ok (some (.error "Order book not found")) := by
  intro pool
  obtain ⟨hhandled, hanswer, hplace, hcancel⟩ : pool.handled = [1, 0] ∧
      pool.server.map (fun state => state.2.head?) =
        .ok (some (.error "Order book not found")) ∧
      (pool.history.accepted[0]?).map Prod.snd = some 7 ∧
      (pool.history.accepted[1]?).map Prod.snd = some 7 := by
    decide +kernel
  refine ⟨fun horder => ?_, hhandled, hanswer⟩
  have hlt := horder 0 1 7 Nat.zero_lt_one hplace hcancel (by simp [hhandled])
  rw [hhandled] at hlt
  exact absurd hlt (by decide)

end WorkerPool

end QuantTrading
