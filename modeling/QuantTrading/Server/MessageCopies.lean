import QuantTrading.Server.MessageQueue
import Mathlib.Data.List.Perm.Basic
import Mathlib.Data.List.FinRange

/-! # Ownership of the message copies

`server_handlers_process_message` copies a message with `strdup`. The copy belongs
to its slot until a worker takes it, and a worker frees the copy once it has handled
it. Here a slot holds the copy itself, named by the number of copies made before it,
and every `free` is recorded.
-/

namespace QuantTrading

variable {Client : Type} {threadCount : Nat}

/-- The fields of `struct ServerHandlers` that concern the copies, the texts of the
copies in the order in which they were made, the copy each worker holds, the number of
copies the workers have taken and the copies freed. -/
structure MessageCopies (Client : Type) (threadCount : Nat) where
  running : Bool
  messageQueue : Nat → Option Nat
  clientQueue : Nat → Option Client
  queueSize : Nat
  queueHead : Nat
  queueTail : Nat
  copies : List CString
  workers : Fin threadCount → Option Nat
  taken : Nat
  freed : List Nat

/-- A step of the server as far as the copies are concerned; `finish` is the rest of
an iteration of a worker, up to its `free`. -/
inductive CopyStep (Client : Type) (threadCount : Nat) where
  | processMessage (client : Client) (message : List Char) : CopyStep Client threadCount
  | startWorkers : CopyStep Client threadCount
  | dequeueMessage (worker : Fin threadCount) : CopyStep Client threadCount
  | finish (worker : Fin threadCount) : CopyStep Client threadCount

namespace MessageCopies

/-- The state `server_handlers_create` sets up. -/
def create (queueSize : Nat) : MessageCopies Client threadCount where
  running := false
  messageQueue := fun _ => none
  clientQueue := fun _ => none
  queueSize := queueSize
  queueHead := 0
  queueTail := 0
  copies := []
  workers := fun _ => none
  taken := 0
  freed := []

/-- Make a copy and store it with its client at the tail. -/
def push (state : MessageCopies Client threadCount) (client : Client) (copy : CString) :
    MessageCopies Client threadCount :=
  { state with
    messageQueue := Function.update state.messageQueue state.queueTail (some state.copies.length)
    clientQueue := Function.update state.clientQueue state.queueTail (some client)
    queueTail := (state.queueTail + 1) % state.queueSize
    copies := state.copies ++ [copy] }

/-- `server_handlers_process_message`. A full queue makes no copy. -/
def processMessage (state : MessageCopies Client threadCount) (client : Client)
    (message : List Char) : Except Fault (Int × MessageCopies Client threadCount) :=
  if (state.queueTail + 1) % state.queueSize = state.queueHead then
    .ok (-1, state)
  else do
    -- strdup
    let copy ← readText message
    .ok (0, state.push client copy)

/-- A worker at the top of its loop gets a message from `dequeue_message`. -/
def Takes (state : MessageCopies Client threadCount) (worker : Fin threadCount) : Prop :=
  state.running = true ∧ state.workers worker = none ∧ state.queueHead ≠ state.queueTail

instance (state : MessageCopies Client threadCount) (worker : Fin threadCount) :
    Decidable (state.Takes worker) :=
  inferInstanceAs (Decidable (_ ∧ _ ∧ _))

/-- `dequeue_message`: the worker gets the pointer in the slot at the head; the slot
is not cleared. -/
def dequeueMessage (state : MessageCopies Client threadCount) (worker : Fin threadCount) :
    MessageCopies Client threadCount :=
  { state with
    workers := Function.update state.workers worker (state.messageQueue state.queueHead)
    queueHead := (state.queueHead + 1) % state.queueSize
    taken := state.taken + 1 }

/-- One step. A message that is not a C string stops the process; a worker without
a message has nothing to finish. -/
def step (state : MessageCopies Client threadCount) :
    CopyStep Client threadCount → MessageCopies Client threadCount
  | .processMessage client message =>
      match state.processMessage client message with
      | .ok (_, state') => state'
      | .error _ => state
  | .startWorkers => { state with running := true }
  | .dequeueMessage worker =>
      if state.Takes worker then state.dequeueMessage worker else state
  | .finish worker =>
      match state.workers worker with
      | some token =>
          { state with
            workers := Function.update state.workers worker none
            freed := state.freed ++ [token] }
      | none => state

/-- The copies that the workers hold. -/
def held (state : MessageCopies Client threadCount) : List Nat :=
  (List.finRange threadCount).filterMap state.workers

/-- `server_handlers_stop_workers`: every worker finishes what it holds before it is
joined, and takes nothing more. -/
def stopWorkers (state : MessageCopies Client threadCount) : MessageCopies Client threadCount :=
  { state with
    running := false
    workers := fun _ => none
    freed := state.freed ++ state.held }

/-- `server_handlers_destroy` as far as the copies are concerned: the loop over all
the slots of the queue frees what they hold. -/
def destroy (state : MessageCopies Client threadCount) : MessageCopies Client threadCount :=
  let state := if state.running then state.stopWorkers else state
  { state with
    freed := state.freed ++ (List.range state.queueSize).filterMap state.messageQueue }

/-- Destroying the handlers now would leave every copy freed exactly once. -/
def ReleasedOnce (state : MessageCopies Client threadCount) : Prop :=
  ∀ token < state.copies.length, state.destroy.freed.count token = 1

instance (state : MessageCopies Client threadCount) : Decidable state.ReleasedOnce :=
  inferInstanceAs (Decidable (∀ token < state.copies.length, _))

/-- The slots outside `head .. tail - 1` hold `NULL`. -/
def OutsideNull (state : MessageCopies Client threadCount) : Prop :=
  ∀ slot < state.queueSize,
    (∀ offset < RingBuffer.occupied state.queueSize state.queueHead state.queueTail,
      slot ≠ (state.queueHead + offset) % state.queueSize) → state.messageQueue slot = none

instance (state : MessageCopies Client threadCount) : Decidable state.OutsideNull :=
  inferInstanceAs (Decidable (∀ slot < state.queueSize, _ → _))

/-- No worker takes a message in this step. -/
def LeavesQueue (state : MessageCopies Client threadCount) : CopyStep Client threadCount → Prop
  | .dequeueMessage worker => ¬ state.Takes worker
  | _ => True

instance (state : MessageCopies Client threadCount) :
    ∀ action : CopyStep Client threadCount, Decidable (state.LeavesQueue action)
  | .dequeueMessage worker => inferInstanceAs (Decidable (¬ state.Takes worker))
  | .processMessage .. => .isTrue trivial
  | .startWorkers => .isTrue trivial
  | .finish _ => .isTrue trivial

/-- What the steps maintain: the copies freed and the copies held are the ones that
the workers have taken; the other copies wait in the ring, in order; the slot before the
head still holds the copy taken last; and before any copy is taken the slots behind
the tail have never been written. -/
structure Owned (queueSize : Nat) (state : MessageCopies Client threadCount) : Prop where
  size_eq : state.queueSize = queueSize
  head_lt : state.queueHead < queueSize
  tail_lt : state.queueTail < queueSize
  taken_le : state.taken ≤ state.copies.length
  waiting_eq : RingBuffer.contents queueSize state.messageQueue state.queueHead state.queueTail =
    (List.range' state.taken (state.copies.length - state.taken)).map some
  released : (state.freed ++ state.held).Perm (List.range state.taken)
  stale : 0 < state.taken →
    state.messageQueue ((state.queueHead + (queueSize - 1)) % queueSize) = some (state.taken - 1)
  unused : state.taken = 0 →
    state.queueHead = 0 ∧ ∀ slot, state.queueTail ≤ slot → state.messageQueue slot = none
  idle : state.running = false → ∀ worker, state.workers worker = none

theorem create_owned {queueSize : Nat} (hsize : 1 ≤ queueSize) :
    Owned queueSize (create queueSize : MessageCopies Client threadCount) where
  size_eq := rfl
  head_lt := hsize
  tail_lt := hsize
  taken_le := Nat.le_refl _
  waiting_eq := RingBuffer.contents_of_empty _ hsize
  released := by simp [create, held]
  stale := nofun
  unused := fun _ => ⟨rfl, fun _ _ => rfl⟩
  idle := fun _ _ => rfl

/-- The copies held when one worker holds `value`: that copy and those of the other
workers. -/
theorem filterMap_update_perm (workers : Fin threadCount → Option Nat)
    (worker : Fin threadCount) (value : Option Nat) :
    ((List.finRange threadCount).filterMap (Function.update workers worker value)).Perm
      (value.toList ++ ((List.finRange threadCount).erase worker).filterMap workers) := by
  have hperm := List.perm_cons_erase (List.mem_finRange worker)
  have hothers : ((List.finRange threadCount).erase worker).filterMap
      (Function.update workers worker value) =
      ((List.finRange threadCount).erase worker).filterMap workers := by
    apply List.filterMap_congr
    intro other hother
    have hne : other ≠ worker := by
      rintro rfl
      exact (List.nodup_finRange threadCount).not_mem_erase hother
    exact Function.update_of_ne hne _ _
  refine (hperm.filterMap _).trans ?_
  cases value with
  | none => simp [hothers]
  | some token => simp [hothers]

/-- The copies held, with those of one worker first. -/
theorem held_perm (state : MessageCopies Client threadCount) (worker : Fin threadCount) :
    state.held.Perm ((state.workers worker).toList ++
      ((List.finRange threadCount).erase worker).filterMap state.workers) := by
  have hperm := filterMap_update_perm state.workers worker (state.workers worker)
  rwa [Function.update_eq_self] at hperm

theorem push_messageQueue (state : MessageCopies Client threadCount) (client : Client)
    (copy : CString) {slot : Nat} (hslot : slot ≠ state.queueTail) :
    (state.push client copy).messageQueue slot = state.messageQueue slot :=
  Function.update_of_ne hslot _ _

namespace Owned

variable {queueSize : Nat} {state : MessageCopies Client threadCount}
  (howned : Owned queueSize state)
include howned

/-- A new copy is written behind the last one, never over the slot before the head. -/
theorem push (hroom : (state.queueTail + 1) % queueSize ≠ state.queueHead) (client : Client)
    (copy : CString) : Owned queueSize (state.push client copy) := by
  have hhead := howned.head_lt
  have htail := howned.tail_lt
  have htaken := howned.taken_le
  have hnext : (state.push client copy).queueTail = (state.queueTail + 1) % queueSize := by
    rw [← howned.size_eq]
    rfl
  refine ⟨howned.size_eq, hhead, ?_, ?_, ?_, howned.released, ?_, ?_, howned.idle⟩
  · rw [hnext]
    exact RingBuffer.next_lt (by omega) _
  · simp only [MessageCopies.push, List.length_append, List.length_singleton]
    omega
  · rw [hnext]
    dsimp only [MessageCopies.push]
    have hlength : (state.copies ++ [copy]).length - state.taken =
        state.copies.length - state.taken + 1 := by
      rw [List.length_append, List.length_singleton]
      omega
    have hlast : state.taken + 1 * (state.copies.length - state.taken) = state.copies.length := by
      omega
    rw [RingBuffer.contents_push hhead htail hroom, howned.waiting_eq, hlength,
      List.range'_concat, List.map_append, hlast]
    rfl
  · intro hpos
    have hne : (state.queueHead + (queueSize - 1)) % queueSize ≠ state.queueTail := by
      rw [RingBuffer.slot_eq hhead (by omega)]
      rw [RingBuffer.next_eq htail] at hroom
      split_ifs at hroom ⊢ <;> omega
    exact (state.push_messageQueue client copy hne).trans (howned.stale hpos)
  · intro hzero
    obtain ⟨hfirst, hnull⟩ := howned.unused hzero
    refine ⟨hfirst, fun slot hslot => ?_⟩
    rw [hnext, RingBuffer.next_eq htail] at hslot
    rw [RingBuffer.next_eq htail] at hroom
    split_ifs at hroom hslot
    · exact absurd hfirst.symm hroom
    · have hne : slot ≠ state.queueTail := by omega
      exact (state.push_messageQueue client copy hne).trans (hnull slot (by omega))

theorem processMessage (client : Client) (message : List Char) :
    Owned queueSize (state.step (.processMessage client message)) := by
  unfold step MessageCopies.processMessage
  dsimp only
  split_ifs with hfull
  · exact howned
  · rw [howned.size_eq] at hfull
    cases hread : readText message with
    | error fault => exact howned
    | ok copy => exact howned.push hfull client copy

/-- A worker that takes a copy leaves it in the slot that is now before the head. -/
theorem take {worker : Fin threadCount} (htakes : state.Takes worker) :
    Owned queueSize (state.dequeueMessage worker) := by
  obtain ⟨hrunning, hidle, hne⟩ := htakes
  have hhead := howned.head_lt
  have hpop := RingBuffer.contents_pop hhead howned.tail_lt hne state.messageQueue
  have hlt : state.taken < state.copies.length := by
    by_contra hge
    rw [howned.waiting_eq, Nat.sub_eq_zero_of_le (Nat.le_of_not_lt hge)] at hpop
    exact List.cons_ne_nil _ _ hpop.symm
  obtain ⟨count, hcount⟩ : ∃ count, state.copies.length - state.taken = count + 1 :=
    ⟨state.copies.length - state.taken - 1, by omega⟩
  rw [howned.waiting_eq, hcount, List.range'_succ, List.map_cons] at hpop
  obtain ⟨hfirst, hrest⟩ := List.cons.inj hpop
  refine ⟨howned.size_eq, ?_, howned.tail_lt, hlt, ?_, ?_, ?_, ?_, ?_⟩
  · simp only [MessageCopies.dequeueMessage, howned.size_eq]
    exact RingBuffer.next_lt (by omega) _
  · simp only [MessageCopies.dequeueMessage, howned.size_eq]
    rw [← hrest, show state.copies.length - (state.taken + 1) = count by omega]
  · have hbefore := state.held_perm worker
    rw [hidle, Option.toList_none, List.nil_append] at hbefore
    have hafter := filterMap_update_perm state.workers worker (some state.taken)
    simp only [MessageCopies.dequeueMessage, held, ← hfirst, List.range_succ]
    refine (hafter.append_left state.freed).trans ?_
    refine ((hbefore.symm.cons state.taken).append_left state.freed).trans ?_
    refine List.perm_middle.trans ?_
    exact (howned.released.cons state.taken).trans (List.perm_append_singleton _ _).symm
  · intro _
    simp only [MessageCopies.dequeueMessage, howned.size_eq]
    have hslot : ((state.queueHead + 1) % queueSize + (queueSize - 1)) % queueSize =
        state.queueHead := by
      rw [RingBuffer.next_eq hhead]
      split_ifs with hlast
      · rw [Nat.zero_add, Nat.mod_eq_of_lt (by omega)]
        omega
      · rw [RingBuffer.slot_eq (by omega) (by omega)]
        split_ifs <;> omega
    rw [hslot, ← hfirst]
    rfl
  · intro hzero
    exact absurd hzero (Nat.succ_ne_zero _)
  · intro hstopped
    exact absurd (hrunning.symm.trans hstopped) nofun

theorem finish (worker : Fin threadCount) : Owned queueSize (state.step (.finish worker)) := by
  unfold step
  dsimp only
  split
  next token htoken =>
    have hbefore := state.held_perm worker
    rw [htoken] at hbefore
    have hafter := filterMap_update_perm state.workers worker none
    refine { howned with released := ?_, idle := ?_ }
    · refine List.Perm.trans ?_ howned.released
      simp only [held, List.append_assoc]
      apply List.Perm.append_left
      exact (hafter.cons token).trans hbefore.symm
    · intro hstopped
      exact absurd (htoken.symm.trans (howned.idle hstopped worker)) nofun
  next _ => exact howned

theorem step (action : CopyStep Client threadCount) : Owned queueSize (state.step action) := by
  cases action with
  | processMessage client message => exact howned.processMessage client message
  | startWorkers => exact { howned with idle := nofun }
  | dequeueMessage worker =>
      unfold MessageCopies.step
      dsimp only
      split_ifs with htakes
      · exact howned.take htakes
      · exact howned
  | finish worker => exact howned.finish worker

/-- The copies freed once the handlers are destroyed: those the workers have taken
and those that the slots hold. -/
theorem destroy_freed_perm :
    state.destroy.freed.Perm
      (List.range state.taken ++ (List.range queueSize).filterMap state.messageQueue) := by
  have hfreed : state.destroy.freed =
      (state.freed ++ state.held) ++ (List.range queueSize).filterMap state.messageQueue := by
    unfold destroy
    cases hrunning : state.running with
    | true =>
        rw [if_pos rfl, ← howned.size_eq]
        rfl
    | false =>
        have hheld : state.held = [] :=
          List.filterMap_eq_nil_iff.mpr fun worker _ => howned.idle hrunning worker
        rw [if_neg Bool.false_ne_true, hheld, List.append_nil, ← howned.size_eq]
  rw [hfreed]
  exact howned.released.append_right _

/-- While no copy has been taken, the slots hold the copies made, each in the slot
with its own number. -/
theorem slots_of_untaken (hzero : state.taken = 0) :
    (List.range queueSize).filterMap state.messageQueue = List.range state.copies.length := by
  obtain ⟨hhead, hnull⟩ := howned.unused hzero
  have htail := howned.tail_lt
  have hwaiting := howned.waiting_eq
  have hoccupied : RingBuffer.occupied queueSize 0 state.queueTail = state.queueTail := by
    rw [RingBuffer.occupied_eq (by omega) htail, if_pos (Nat.zero_le _), Nat.sub_zero]
  rw [hzero, hhead, RingBuffer.contents, hoccupied, Nat.sub_zero, ← List.range_eq_range']
    at hwaiting
  have hslots : (List.range state.queueTail).map state.messageQueue =
      (List.range state.copies.length).map some := by
    rw [← hwaiting]
    apply List.map_congr_left
    intro slot hslot
    rw [List.mem_range] at hslot
    rw [Nat.zero_add, Nat.mod_eq_of_lt (by omega)]
  have hsplit : List.range queueSize =
      List.range state.queueTail ++ List.range' state.queueTail (queueSize - state.queueTail) := by
    have happend := List.range'_append_1 (s := 0) (m := state.queueTail)
      (n := queueSize - state.queueTail)
    rw [Nat.zero_add, Nat.add_sub_cancel' htail.le] at happend
    rw [List.range_eq_range', List.range_eq_range', happend]
  have hbehind : (List.range' state.queueTail (queueSize - state.queueTail)).filterMap
      state.messageQueue = [] := by
    apply List.filterMap_eq_nil_iff.mpr
    intro slot hslot
    exact hnull slot (List.mem_range'_1.mp hslot).1
  calc (List.range queueSize).filterMap state.messageQueue
      = (List.range state.queueTail).filterMap state.messageQueue := by
        rw [hsplit, List.filterMap_append, hbehind, List.append_nil]
    _ = ((List.range state.queueTail).map state.messageQueue).filterMap id := by
        rw [List.filterMap_map]
        rfl
    _ = List.range state.copies.length := by
        rw [hslots, List.filterMap_map]
        exact List.filterMap_some

/-- The copy taken last would be freed again. -/
theorem releasedOnce_iff : state.ReleasedOnce ↔ state.taken = 0 := by
  have hperm := howned.destroy_freed_perm
  have htaken := howned.taken_le
  constructor
  · intro honce
    by_contra hne
    have hpos := Nat.pos_of_ne_zero hne
    have hcount := honce (state.taken - 1) (by omega)
    have hslot : state.taken - 1 ∈ (List.range queueSize).filterMap state.messageQueue := by
      apply List.mem_filterMap.mpr
      refine ⟨_, ?_, howned.stale hpos⟩
      exact List.mem_range.mpr (Nat.mod_lt _ (Nat.zero_lt_of_lt howned.head_lt))
    have hworker : state.taken - 1 ∈ List.range state.taken := List.mem_range.mpr (by omega)
    rw [hperm.count_eq, List.count_append] at hcount
    have hfirst := List.count_pos_iff.mpr hworker
    have hsecond := List.count_pos_iff.mpr hslot
    omega
  · intro hzero token htoken
    rw [hperm.count_eq, hzero, howned.slots_of_untaken hzero]
    exact List.count_eq_one_of_mem List.nodup_range (List.mem_range.mpr htoken)

/-- The slot before the head is outside the ring's contents. -/
theorem outsideNull_iff : state.OutsideNull ↔ state.taken = 0 := by
  have hhead := howned.head_lt
  have htail := howned.tail_lt
  have hoccupied := RingBuffer.occupied_lt hhead htail
  constructor
  · intro houtside
    by_contra hne
    have hstale := howned.stale (Nat.pos_of_ne_zero hne)
    have hnull := houtside ((state.queueHead + (queueSize - 1)) % queueSize) ?_ ?_
    · exact absurd (hstale.symm.trans hnull) nofun
    · rw [howned.size_eq]
      exact Nat.mod_lt _ (by omega)
    · rw [howned.size_eq]
      intro offset hoffset heq
      rw [RingBuffer.slot_eq hhead (by omega), RingBuffer.slot_eq hhead (by omega)] at heq
      split_ifs at heq <;> omega
  · intro hzero slot hslot houtside
    obtain ⟨hfirst, hnull⟩ := howned.unused hzero
    rw [howned.size_eq] at hslot houtside
    apply hnull
    by_contra hlt
    apply houtside slot
    · rw [hfirst, RingBuffer.occupied_eq (by omega) htail, if_pos (Nat.zero_le _)]
      omega
    · rw [hfirst, Nat.zero_add, Nat.mod_eq_of_lt hslot]

end Owned

/-- A step takes a copy exactly when it is a dequeue that finds one. -/
theorem step_taken_eq_zero_iff (state : MessageCopies Client threadCount)
    (action : CopyStep Client threadCount) :
    (state.step action).taken = 0 ↔ state.taken = 0 ∧ state.LeavesQueue action := by
  cases action with
  | processMessage client message =>
      rw [step, processMessage]
      split_ifs with hfull
      · simp [LeavesQueue]
      · cases hread : readText message <;> simp [LeavesQueue, push, bind, Except.bind]
  | startWorkers => simp [step, LeavesQueue]
  | dequeueMessage worker =>
      rw [step]
      split_ifs with htakes
      · simp [dequeueMessage, LeavesQueue, htakes]
      · simp [LeavesQueue, htakes]
  | finish worker =>
      rw [step]
      split <;> simp [LeavesQueue]

theorem run_taken_eq_zero_iff (state : MessageCopies Client threadCount)
    (actions : List (CopyStep Client threadCount)) :
    (Transition.run step state actions).taken = 0 ↔
      state.taken = 0 ∧ Transition.Along step LeavesQueue state actions :=
  Transition.run_iff_along step (fun _ => True) (fun state => state.taken = 0)
    (fun _ _ _ => trivial) (fun state action _ => state.step_taken_eq_zero_iff action) trivial
    actions

theorem run_owned {queueSize : Nat} (hsize : 1 ≤ queueSize)
    (actions : List (CopyStep Client threadCount)) :
    Owned queueSize (Transition.run step (create queueSize) actions) :=
  Transition.run_invariant step (Owned queueSize) (fun _ action h => h.step action)
    (create_owned hsize) actions

/-- In every run, with any number of workers: the handlers are destroyed with every
copy freed exactly once just when no worker has taken a copy, and just then the slots
outside the ring's contents hold `NULL` in every state of the run. -/
theorem run_released_once_iff {queueSize : Nat} (hsize : 1 ≤ queueSize)
    (actions : List (CopyStep Client threadCount)) :
    ((Transition.run MessageCopies.step (create queueSize) actions).ReleasedOnce ↔
      Transition.Along step LeavesQueue (create queueSize) actions) ∧
    ((∀ count, (Transition.run step (create queueSize) (actions.take count)).OutsideNull) ↔
      Transition.Along step LeavesQueue (create queueSize) actions) := by
  have hcreate : (create queueSize : MessageCopies Client threadCount).taken = 0 := rfl
  constructor
  · rw [(run_owned hsize actions).releasedOnce_iff, run_taken_eq_zero_iff]
    exact and_iff_right hcreate
  · constructor
    · intro hstates
      have hlast := hstates actions.length
      rw [List.take_length, (run_owned hsize actions).outsideNull_iff,
        run_taken_eq_zero_iff] at hlast
      exact hlast.2
    · intro halong count
      rw [(run_owned hsize _).outsideNull_iff, run_taken_eq_zero_iff]
      exact ⟨hcreate, halong.take step count⟩

/-- A queue of two slots refuses the second message, and the one copy, which no worker
takes, is freed once. -/
theorem run_released_once_iff_untaken :
    let actions : List (CopyStep Nat 1) :=
      [.processMessage 7 ['a', nul], .processMessage 8 ['b', nul], .startWorkers]
    Transition.Along step LeavesQueue (create 2) actions ∧
      (Transition.run step (create 2) actions).ReleasedOnce ∧
      (Transition.run step (create 2) actions).copies = [['a']] := by
  intro actions
  have halong : Transition.Along step LeavesQueue (create 2) actions := by decide
  exact ⟨halong, (run_released_once_iff (by decide) actions).1.mpr halong, by decide⟩

/-- One message, taken and freed by the worker, is freed again from its slot. -/
theorem copy_freed_twice :
    let state := Transition.run step (create 2 : MessageCopies Nat 1)
      [.startWorkers, .processMessage 7 ['a', nul], .dequeueMessage 0, .finish 0]
    state.freed = [0] ∧ state.destroy.freed = [0, 0] ∧ ¬ state.ReleasedOnce ∧
      ¬ state.OutsideNull := by
  decide

/-! ## The queue of texts -/

/-- The queue with the texts of the copies in the place of the copies. -/
def toQueue (state : MessageCopies Client threadCount) : MessageQueue Client where
  messageQueue := fun slot => (state.messageQueue slot).bind (state.copies[·]?)
  clientQueue := state.clientQueue
  queueSize := state.queueSize
  queueHead := state.queueHead
  queueTail := state.queueTail

/-- The slots hold copies that have been made. -/
def Made (state : MessageCopies Client threadCount) : Prop :=
  ∀ slot token, state.messageQueue slot = some token → token < state.copies.length

theorem Made.push {state : MessageCopies Client threadCount} (hmade : state.Made)
    (client : Client) (copy : CString) : (state.push client copy).Made := by
  intro slot token hslot
  simp only [MessageCopies.push, List.length_append, List.length_singleton]
  by_cases htail : slot = state.queueTail
  · subst htail
    simp only [MessageCopies.push, Function.update_self, Option.some.injEq] at hslot
    omega
  · rw [state.push_messageQueue client copy htail] at hslot
    exact Nat.lt_succ_of_lt (hmade slot token hslot)

theorem Made.step {state : MessageCopies Client threadCount} (hmade : state.Made)
    (action : CopyStep Client threadCount) : (state.step action).Made := by
  cases action with
  | processMessage client message =>
      unfold MessageCopies.step MessageCopies.processMessage
      dsimp only
      split_ifs with hfull
      · exact hmade
      · cases readText message with
        | error fault => exact hmade
        | ok copy => exact hmade.push client copy
  | startWorkers => exact hmade
  | dequeueMessage worker =>
      unfold MessageCopies.step
      dsimp only
      split_ifs
      · exact hmade
      · exact hmade
  | finish worker =>
      unfold MessageCopies.step
      dsimp only
      split <;> exact hmade

theorem Made.push_toQueue {state : MessageCopies Client threadCount} (hmade : state.Made)
    (client : Client) (copy : CString) :
    (state.push client copy).toQueue = state.toQueue.push client copy := by
  have hslots : (state.push client copy).toQueue.messageQueue =
      (state.toQueue.push client copy).messageQueue := by
    funext slot
    by_cases htail : slot = state.queueTail
    · subst htail
      simp [toQueue, MessageCopies.push, MessageQueue.push]
    · simp only [toQueue, MessageQueue.push, state.push_messageQueue client copy htail,
        Function.update_of_ne htail]
      cases hslot : state.messageQueue slot with
      | none => rfl
      | some token => exact List.getElem?_append_left (hmade slot token hslot)
  simp only [toQueue, MessageQueue.push] at hslots ⊢
  rw [hslots]
  rfl

/-- A step is a call on the queue of texts, or leaves it as it is. -/
theorem Made.step_toQueue {state : MessageCopies Client threadCount} (hmade : state.Made)
    {history : QueueHistory Client} (hqueue : history.queue = state.toQueue)
    (action : CopyStep Client threadCount) :
    ∃ calls, (Transition.run QueueHistory.step history calls).queue =
      (state.step action).toQueue := by
  cases action with
  | processMessage client message =>
      refine ⟨[.processMessage client message message.length], ?_⟩
      simp only [Transition.run_cons, Transition.run_nil, QueueHistory.step, MessageCopies.step,
        MessageQueue.processMessage, MessageCopies.processMessage, hqueue]
      -- both models make the same test
      have htest : ((state.toQueue.queueTail + 1) % state.toQueue.queueSize =
          state.toQueue.queueHead) =
          ((state.queueTail + 1) % state.queueSize = state.queueHead) := rfl
      simp only [htest]
      by_cases hfull : (state.queueTail + 1) % state.queueSize = state.queueHead
      · rw [if_pos hfull, if_pos hfull]
        exact hqueue
      · rw [if_neg hfull, if_neg hfull]
        cases readText message with
        | error fault => exact hqueue
        | ok copy => exact (hmade.push_toQueue client copy).symm
  | startWorkers => exact ⟨[], hqueue⟩
  | dequeueMessage worker =>
      rw [MessageCopies.step]
      split_ifs with htakes
      · refine ⟨[.dequeueMessage worker], ?_⟩
        simp only [Transition.run_cons, Transition.run_nil, QueueHistory.step,
          MessageQueue.dequeueMessage, hqueue]
        have hne : state.toQueue.queueHead ≠ state.toQueue.queueTail := htakes.2.2
        rw [if_neg hne]
        rfl
      · exact ⟨[], hqueue⟩
  | finish worker =>
      refine ⟨[], hqueue.trans ?_⟩
      rw [MessageCopies.step]
      split <;> rfl

/-- The copies refine the queue of texts: in every run the slots hold the texts that
some calls on the queue put there. -/
theorem run_toQueue (queueSize : Nat) (actions : List (CopyStep Client threadCount)) :
    ∃ calls, (Transition.run MessageCopies.step (create queueSize) actions).toQueue =
      (Transition.run QueueHistory.step (QueueHistory.create queueSize) calls).queue := by
  have hcreate : (create queueSize : MessageCopies Client threadCount).Made ∧
      ∃ calls, (create queueSize : MessageCopies Client threadCount).toQueue =
        (Transition.run QueueHistory.step (QueueHistory.create queueSize) calls).queue :=
    ⟨nofun, [], rfl⟩
  have hrun := Transition.run_invariant MessageCopies.step
    (fun state => state.Made ∧ ∃ calls, state.toQueue =
      (Transition.run QueueHistory.step (QueueHistory.create queueSize) calls).queue) ?_
    hcreate actions
  · exact hrun.2
  · rintro state action ⟨hmade, calls, hcalls⟩
    obtain ⟨more, hmore⟩ := hmade.step_toQueue hcalls.symm action
    refine ⟨hmade.step action, calls ++ more, ?_⟩
    rw [Transition.run_append, hmore]

end MessageCopies

end QuantTrading
