import QuantTrading.Client.TradeHistory
import QuantTrading.Foundation.Components
import QuantTrading.Foundation.ListMemory

/-! # The trade history as a program on memory

The functions of `trade_history.c` on the record of a history and the linked list of its
trades. An allocation may fail, in `trade_history_create` and in every call that adds a
trade; a full history has given up its newest trade by then. The loops take a bound on the
number of records they may visit. Whether all trades are recorded is a field that no
function reads.
-/

namespace QuantTrading

open Separation Separation.Program Separation.Assertion

/-- The cells of a trade history. -/
inductive HistoryCell (α : Type) where
  | history (trades : Option Nat) (tradeCount maxTrades : Int) : HistoryCell α
  | record (trade : TradeBuffer α) (next : Option Nat) : HistoryCell α

/-- A call on a trade history. -/
inductive HistoryCall (α : Type) where
  | addTrade (trade : TradeBuffer α) : HistoryCall α
  | getTrades (maxTrades : Int) : HistoryCall α

variable {α β : Type}

namespace HistoryMemory

/-! ## The functions -/

/-- `struct TradeRecord`. -/
def tradeRecord : NodeLayout (HistoryCell α) (TradeBuffer α) where
  node := .record
  read := fun cell =>
    match cell with
    | .record trade next => some (trade, next)
    | .history _ _ _ => none
  read_node := fun _ _ => rfl

/-- The fields of the history a pointer points to. -/
def loadHistory (history : Nat) : Program (HistoryCell α) (Option Nat × Int × Int) := do
  match ← load (some history) with
  | .history trades tradeCount maxTrades => return (trades, tradeCount, maxTrades)
  | .record _ _ => fault

/-- `trade_history_create`. -/
def tradeHistoryCreate (allocator : Allocator (HistoryCell α)) (maxTrades : Int) :
    Program (HistoryCell α) (Option Nat) :=
  allocate allocator (.history none 0 maxTrades)

/-- `trade_history_destroy`. -/
def tradeHistoryDestroy (fuel : Nat) : Option Nat → Program (HistoryCell α) Unit
  | none => return ()
  | some history => do
      let (trades, _, _) ← loadHistory history
      tradeRecord.releaseAll (fun current => free (some current)) fuel trades
      free (some history)

/-- The room that `trade_history_add_trade` makes in a full history: it frees the head of
the list. -/
def freeOldest (history : Nat) : Program (HistoryCell α) Unit := do
  let (oldest, tradeCount, maxTrades) ← loadHistory history
  match oldest with
  | none => fault
  | some oldest => do
      let (_, next) ← tradeRecord.load oldest
      store (some history) (.history next tradeCount maxTrades)
      free (some oldest)
      let (trades, tradeCount, maxTrades) ← loadHistory history
      store (some history) (.history trades (tradeCount - 1) maxTrades)

/-- The rest of `trade_history_add_trade`: a new record at the head of the list. -/
def linkRecord (allocator : Allocator (HistoryCell α)) (history : Nat) (trade : TradeBuffer α) :
    Program (HistoryCell α) Int := do
  match ← allocate allocator (.record trade none) with
  | none => return -1
  | some record => do
      let (trades, tradeCount, maxTrades) ← loadHistory history
      tradeRecord.setNext record trades
      store (some history) (.history (some record) (tradeCount + 1) maxTrades)
      return 0

/-- `trade_history_add_trade`. -/
def tradeHistoryAddTrade (allocator : Allocator (HistoryCell α)) :
    Option Nat → Option (TradeBuffer α) → Program (HistoryCell α) Int
  | some history, some trade => do
      let (_, tradeCount, maxTrades) ← loadHistory history
      if maxTrades ≤ tradeCount then do
        freeOldest history
        linkRecord allocator history trade
      else linkRecord allocator history trade
  | _, _ => return -1

/-- `trade_history_get_trades`: the return value and the trades copied. -/
def tradeHistoryGetTrades (fuel : Nat) (history : Option Nat) (maxTrades : Int) :
    Program (HistoryCell α) (Int × List (TradeBuffer α)) :=
  match history with
  | none => return (-1, [])
  | some history => do
      let (trades, _, _) ← loadHistory history
      let copied ← tradeRecord.walk
        (fun copied : List (TradeBuffer α) => (copied.length : Int) < maxTrades)
        (fun copied current => return copied ++ [current]) fuel trades []
      return (0, copied)

/-- The functions of a trade history. -/
def component (allocator : Allocator (HistoryCell α)) (fuel : Nat) (maxTrades : Int) :
    Component (HistoryCell α) (HistoryCall α) (Int × List (TradeBuffer α)) where
  create := tradeHistoryCreate allocator maxTrades
  call := fun history call =>
    match call with
    | .addTrade trade => do
        let code ← tradeHistoryAddTrade allocator (some history) (some trade)
        return (code, [])
    | .getTrades maxTrades => tradeHistoryGetTrades fuel (some history) maxTrades
  destroy := tradeHistoryDestroy fuel

/-! ## What they compute -/

/-- What an addition leaves when there is no memory for the record. -/
def withoutRecord (history : TradeHistory α) : TradeHistory α :=
  if history.maxTrades ≤ history.tradeCount then
    { history with trades := history.trades.tail, tradeCount := history.tradeCount - 1 }
  else history

/-- What a call may reply and make of a history: an addition may be refused memory. -/
def Next (refused : Prop) :
    HistoryCall α → TradeHistory α → Int × List (TradeBuffer α) → TradeHistory α → Prop
  | .addTrade trade, history, reply, history' =>
      (history.addTrade trade = .ok history' ∧ reply = (0, [])) ∨
        (refused ∧ history' = withoutRecord history ∧ reply = (-1, []))
  | .getTrades maxTrades, history, reply, history' =>
      history' = history ∧ reply = (0, history.getTrades maxTrades)

/-- The counter of a history is right, and it has room for a trade. -/
structure Counted (maxTrades : Int) (history : TradeHistory α) : Prop where
  tradeCount : history.tradeCount = history.trades.length
  tradeCount_le : history.tradeCount ≤ maxTrades
  maxTrades : history.maxTrades = maxTrades

/-- What a record represents. -/
def holdsTrade (record trade : TradeBuffer α) : Assertion (HistoryCell α) :=
  fact (record = trade)

/-- A history in memory. -/
def historyAt (address : Nat) (history : TradeHistory α) : Assertion (HistoryCell α) :=
  any fun head => points address (.history head history.tradeCount history.maxTrades) *
    tradeRecord.segment holdsTrade head history.trades none

section Calls

variable {address : Nat} {history : TradeHistory α} {head : Option Nat}
  {tradeCount maxTrades : Int} {trade : TradeBuffer α} {trades : List (TradeBuffer α)}
  {other : Assertion (HistoryCell α)} {post : β → Assertion (HistoryCell α)}

theorem loadHistory_bind {next : Option Nat × Int × Int → Program (HistoryCell α) β}
    (hnext : Triple (points address (.history head tradeCount maxTrades) * other)
      (next (head, tradeCount, maxTrades)) post) :
    Triple (points address (.history head tradeCount maxTrades) * other)
      (loadHistory address >>= next) post := by
  rw [loadHistory, bind_assoc]
  exact Triple.load_bind rfl hnext

/-- A history in parts. -/
theorem historyAt_intro (head : Option Nat) {part : Heap (HistoryCell α)}
    (hpart : (points address (.history head history.tradeCount history.maxTrades) *
      tradeRecord.segment holdsTrade head history.trades none : Assertion (HistoryCell α)) part) :
    historyAt address history part :=
  any_intro head hpart

/-- Freeing the head of a list that is not empty. -/
theorem freeOldest_spec (htrades : history.trades = trade :: trades) :
    Triple (historyAt address history) (freeOldest address) fun _ =>
      historyAt address
        { history with trades := trades, tradeCount := history.tradeCount - 1 } := by
  refine Triple.of_any fun head => ?_
  rw [htrades, mul_comm]
  refine NodeLayout.open_segment ?_
  rintro oldest record next rfl
  rw [mul_left_comm]
  refine Triple.of_fact_mul fun _ => ?_
  refine Triple.reorder (points address
    (.history (some oldest) history.tradeCount history.maxTrades) *
      (points oldest (tradeRecord.node record next) *
        tradeRecord.segment holdsTrade next trades none)) (by ac_rfl) ?_
  rw [freeOldest]
  apply loadHistory_bind
  rw [mul_left_comm]
  apply NodeLayout.load_bind
  refine Triple.store_bind (mul_left_comm _ _ _) ?_
  refine Triple.free_bind (mul_left_comm _ _ _) ?_
  apply loadHistory_bind
  exact (Triple.store _).last rfl fun _ part hpart => any_intro next hpart

/-- What linking a record may come to. -/
def Linked (allocator : Allocator (HistoryCell α)) (trade : TradeBuffer α)
    (history history' : TradeHistory α) (code : Int) : Prop :=
  (code = 0 ∧ history' = { history with
      trades := trade :: history.trades
      tradeCount := history.tradeCount + 1 }) ∨
    (code = -1 ∧ allocator.Fails ∧ history' = history)

theorem linkRecord_spec (allocator : Allocator (HistoryCell α)) (trade : TradeBuffer α) :
    Triple (historyAt address history) (linkRecord allocator address trade) fun code =>
      any fun history' => fact (Linked allocator trade history history' code) *
        historyAt address history' := by
  refine Triple.of_any fun head => ?_
  rw [linkRecord]
  refine (Triple.allocate allocator _).call (one_mul _).symm fun result => ?_
  cases result with
  | none =>
      refine Triple.of_fact_mul fun hfails => Triple.pure fun part hpart => ?_
      exact any_intro history (fact_mul_apply.mpr
        ⟨Or.inr ⟨rfl, hfails, rfl⟩, historyAt_intro head hpart⟩)
  | some record =>
      dsimp only
      rw [mul_left_comm]
      apply loadHistory_bind
      rw [mul_left_comm]
      refine (NodeLayout.setNext_spec head).call rfl fun _ => ?_
      refine Triple.store_bind (mul_left_comm _ _ _) (Triple.pure fun part hpart => ?_)
      refine any_intro { history with
        trades := trade :: history.trades
        tradeCount := history.tradeCount + 1 } (fact_mul_apply.mpr ⟨Or.inl ⟨rfl, rfl⟩, ?_⟩)
      refine historyAt_intro (some record)
        (rearrange (mul_comm _ _) (NodeLayout.segment_cons trade head ?_))
      rw [holdsTrade, fact_of_true rfl, one_mul]
      dsimp only at hpart ⊢
      exact rearrange (by ac_rfl) hpart

/-- A history with room keeps a trade, and a full one gives up its newest trade for it. -/
theorem tradeHistoryAddTrade_spec (allocator : Allocator (HistoryCell α)) {capacity : Int}
    (hcapacity : 1 ≤ capacity) (hcounted : Counted capacity history) (trade : TradeBuffer α) :
    Triple (historyAt address history)
      (tradeHistoryAddTrade allocator (some address) (some trade)) fun code =>
        any fun history' => fact ((history.addTrade trade = .ok history' ∧ code = 0) ∨
          (allocator.Fails ∧ history' = withoutRecord history ∧ code = -1)) *
            historyAt address history' := by
  have hcount := hcounted.tradeCount
  have hmaximum := hcounted.maxTrades
  rw [tradeHistoryAddTrade, TradeHistory.addTrade, withoutRecord]
  refine Triple.of_any fun head => ?_
  apply loadHistory_bind
  dsimp only
  by_cases hfull : history.maxTrades ≤ history.tradeCount
  · obtain ⟨newest, rest, htrades⟩ : ∃ newest rest, history.trades = newest :: rest := by
      apply List.exists_cons_of_ne_nil
      rintro hnil
      rw [hnil, List.length_nil] at hcount
      omega
    rw [if_pos hfull, if_pos hfull, if_pos hfull, htrades]
    refine Triple.bind (Triple.consequence (freeOldest_spec htrades)
      (fun part hpart => historyAt_intro head (htrades ▸ hpart)) fun _ _ => id) fun _ => ?_
    refine (linkRecord_spec allocator trade).weaken fun code part hpart => ?_
    obtain ⟨history', hpart⟩ := hpart
    obtain ⟨hlinked, hpart⟩ := fact_mul_apply.mp hpart
    refine any_intro history' (fact_mul_apply.mpr ⟨?_, hpart⟩)
    rcases hlinked with ⟨hcode, rfl⟩ | ⟨hcode, hfails, rfl⟩
    · refine Or.inl ⟨?_, hcode⟩
      simp
    · exact Or.inr ⟨hfails, rfl, hcode⟩
  · rw [if_neg hfull, if_neg hfull, if_neg hfull]
    refine Triple.consequence (linkRecord_spec allocator trade)
      (fun part hpart => historyAt_intro head hpart) fun code part hpart => ?_
    obtain ⟨history', hpart⟩ := hpart
    obtain ⟨hlinked, hpart⟩ := fact_mul_apply.mp hpart
    refine any_intro history' (fact_mul_apply.mpr ⟨?_, hpart⟩)
    rcases hlinked with ⟨hcode, rfl⟩ | ⟨hcode, hfails, rfl⟩
    · exact Or.inl ⟨rfl, hcode⟩
    · exact Or.inr ⟨hfails, rfl, hcode⟩

/-- The copies are the trades at the head of the list. -/
theorem walked_copy (capacity : Int) (trades copied : List (TradeBuffer α)) :
    NodeLayout.walked (fun copied : List (TradeBuffer α) => (copied.length : Int) < capacity)
      (fun copied current => copied ++ [current]) trades copied =
        copied ++ TradeHistory.copyTrades capacity trades copied.length := by
  induction trades generalizing copied with
  | nil => exact (List.append_nil copied).symm
  | cons current next ih =>
      rw [NodeLayout.walked, TradeHistory.copyTrades]
      by_cases hroom : (copied.length : Int) < capacity
      · rw [if_pos (decide_eq_true hroom), if_pos hroom, ih, List.length_append,
          List.length_singleton, Nat.cast_add, Nat.cast_one, List.append_assoc]
        rfl
      · rw [if_neg (by simpa using hroom), if_neg hroom, List.append_nil]

theorem tradeHistoryGetTrades_spec {fuel : Nat} (hfuel : history.trades.length ≤ fuel)
    (capacity : Int) :
    Triple (historyAt address history) (tradeHistoryGetTrades fuel (some address) capacity)
      fun reply => fact (reply = (0, history.getTrades capacity)) * historyAt address history := by
  refine Triple.of_any fun head => ?_
  rw [tradeHistoryGetTrades]
  apply loadHistory_bind
  rw [mul_comm]
  have hvisit : ∀ (copied : List (TradeBuffer α)) (record trade : TradeBuffer α),
      Triple (holdsTrade record trade) (pure (copied ++ [record])) fun copied' =>
        fact (copied' = copied ++ [trade]) * holdsTrade record trade := by
    rintro copied record trade
    refine Triple.pure fun part hpart => fact_mul_apply.mpr ⟨?_, hpart⟩
    rw [hpart.1]
  dsimp only
  refine (NodeLayout.walk_spec hvisit hfuel []).call rfl fun copied => ?_
  rw [mul_assoc]
  refine Triple.of_fact_mul fun hcopied => Triple.pure fun part hpart => ?_
  refine fact_mul_apply.mpr ⟨?_, historyAt_intro head (rearrange (mul_comm _ _) hpart)⟩
  rw [hcopied, walked_copy]
  rfl

theorem tradeHistoryDestroy_spec {fuel : Nat} (hfuel : history.trades.length ≤ fuel) :
    Triple (historyAt address history) (tradeHistoryDestroy fuel (some address)) fun _ => 1 := by
  refine Triple.of_any fun head => ?_
  rw [tradeHistoryDestroy]
  apply loadHistory_bind
  rw [mul_comm]
  refine (NodeLayout.releaseAll_spec (fun record trade next value => ?_) hfuel).call rfl fun _ => ?_
  · rw [mul_comm, holdsTrade]
    exact Triple.of_fact_mul fun _ => Triple.free
  · rw [one_mul]
    exact Triple.free

end Calls

/-! ## Whole lives -/

theorem Counted.addTrade {capacity : Int} {history history' : TradeHistory α}
    (hcounted : Counted capacity history) {trade : TradeBuffer α}
    (hadded : history.addTrade trade = .ok history') :
    Counted capacity history' ∧ history'.trades.length ≤ history.trades.length + 1 := by
  have hcount := hcounted.tradeCount
  have hle := hcounted.tradeCount_le
  have hmaximum := hcounted.maxTrades
  rw [TradeHistory.addTrade] at hadded
  split_ifs at hadded with hfull
  · cases htrades : history.trades with
    | nil =>
        rw [htrades] at hadded
        cases hadded
    | cons newest rest =>
        rw [htrades] at hadded hcount
        cases hadded
        exact ⟨⟨hcount, hle, hmaximum⟩, Nat.le_succ _⟩
  · cases hadded
    refine ⟨⟨?_, ?_, hmaximum⟩, le_rfl⟩
    · rw [List.length_cons, Nat.cast_succ, ← hcount]
    · dsimp only
      omega

theorem Counted.withoutRecord {capacity : Int} (hcapacity : 1 ≤ capacity)
    {history : TradeHistory α} (hcounted : Counted capacity history) :
    Counted capacity (withoutRecord history) ∧
      (HistoryMemory.withoutRecord history).trades.length ≤ history.trades.length := by
  have hcount := hcounted.tradeCount
  have hle := hcounted.tradeCount_le
  have hmaximum := hcounted.maxTrades
  rw [HistoryMemory.withoutRecord]
  split_ifs with hfull
  · refine ⟨⟨?_, ?_, hmaximum⟩, ?_⟩
    · dsimp only
      rw [List.length_tail]
      omega
    · dsimp only
      omega
    · rw [List.length_tail]
      exact Nat.sub_le _ _
  · exact ⟨hcounted, le_rfl⟩

/-- What the remaining calls need. -/
def Ready (capacity : Int) (fuel : Nat) (history : TradeHistory α)
    (rest : List (HistoryCall α)) : Prop :=
  Counted capacity history ∧ history.trades.length + rest.length ≤ fuel

theorem create_spec (allocator : Allocator (HistoryCell α)) (fuel : Nat) (capacity : Int) :
    Triple 1 (component allocator fuel capacity).create fun created =>
      match created with
      | none => fact allocator.Fails
      | some address => historyAt address (TradeHistory.create capacity) := by
  refine (Triple.allocate allocator _).weaken fun result part hpart => ?_
  cases result with
  | none => exact hpart
  | some address =>
      refine historyAt_intro none ?_
      rw [TradeHistory.create, NodeLayout.segment_nil, mul_one]
      exact hpart

theorem call_spec (allocator : Allocator (HistoryCell α)) {fuel : Nat} {capacity : Int}
    (hcapacity : 1 ≤ capacity) (address : Nat) (history : TradeHistory α)
    (call : HistoryCall α) (rest : List (HistoryCall α))
    (hready : Ready capacity fuel history (call :: rest)) :
    Triple (historyAt address history) ((component allocator fuel capacity).call address call)
      fun reply => any fun history' =>
        fact (Next allocator.Fails call history reply history' ∧
          Ready capacity fuel history' rest) * historyAt address history' := by
  obtain ⟨hcounted, hfuel⟩ := hready
  rw [List.length_cons] at hfuel
  cases call with
  | addTrade trade =>
      refine (tradeHistoryAddTrade_spec allocator hcapacity hcounted trade).bind fun code => ?_
      refine Triple.of_any fun history' => Triple.of_fact_mul fun hadded =>
        Triple.pure fun part hpart => any_intro history' (fact_mul_apply.mpr ⟨⟨?_, ?_⟩, hpart⟩)
      · rcases hadded with ⟨hadded, rfl⟩ | ⟨hfails, hwithout, rfl⟩
        · exact Or.inl ⟨hadded, rfl⟩
        · exact Or.inr ⟨hfails, hwithout, rfl⟩
      · rcases hadded with ⟨hadded, _⟩ | ⟨_, rfl, _⟩
        · obtain ⟨hcounted', hlength⟩ := hcounted.addTrade hadded
          exact ⟨hcounted', by omega⟩
        · obtain ⟨hcounted', hlength⟩ := hcounted.withoutRecord hcapacity
          exact ⟨hcounted', by omega⟩
  | getTrades maxTrades =>
      refine (tradeHistoryGetTrades_spec (by omega) maxTrades).weaken fun reply part hpart => ?_
      obtain ⟨hreply, hpart⟩ := fact_mul_apply.mp hpart
      exact any_intro history (fact_mul_apply.mpr ⟨⟨⟨rfl, hreply⟩, hcounted, by omega⟩, hpart⟩)

theorem destroy_spec (allocator : Allocator (HistoryCell α)) {fuel : Nat} {capacity : Int}
    (address : Nat) (history : TradeHistory α) (hready : Ready capacity fuel history []) :
    Triple (historyAt address history)
      ((component allocator fuel capacity).destroy (some address)) fun _ => 1 :=
  tradeHistoryDestroy_spec hready.2

/-- The functions of a history keep to it. -/
def represents (fuel : Nat) {capacity : Int} (hcapacity : 1 ≤ capacity) :
    Component.Represents (fun allocator : Allocator (HistoryCell α) =>
      component allocator fuel capacity) (TradeHistory α) where
  holds := historyAt
  start := TradeHistory.create capacity
  next := Next
  ready := Ready capacity fuel
  create_spec := fun allocator => create_spec allocator fuel capacity
  call_spec := fun allocator => call_spec allocator hcapacity
  destroy_none := fun _ => rfl
  destroy_spec := fun allocator => destroy_spec allocator

/-- The replies of a history that always gets its memory, after some trades. -/
def replies (capacity : Int) :
    List (TradeBuffer α) → List (HistoryCall α) → List (Int × List (TradeBuffer α))
  | _, [] => []
  | trades, .addTrade trade :: rest => (0, []) :: replies capacity (trades ++ [trade]) rest
  | trades, .getTrades maxTrades :: rest =>
      (0, (TradeHistory.kept capacity.toNat trades).reverse.take maxTrades.toNat) ::
        replies capacity trades rest

/-- With an allocator that never gives up, every call is answered from the trades so far. -/
theorem replies_of_path {allocator : Allocator (HistoryCell α)} (hnever : ¬ allocator.Fails)
    {fuel : Nat} {capacity : Int} (hcapacity : 1 ≤ capacity) {address : Nat}
    {calls : List (HistoryCall α)}
    {start last : Moment (HistoryCell α) (List (Int × List (TradeBuffer α))) (TradeHistory α)}
    (hpath : Path ((represents fuel hcapacity).Answered allocator address) calls start last)
    {trades : List (TradeBuffer α)} (hholds : TradeHistory.Holds capacity trades start.state) :
    last.collected = start.collected ++ replies capacity trades calls := by
  induction hpath generalizing trades with
  | nil moment => exact (List.append_nil moment.collected).symm
  | @cons call rest before middle last hstep _ ih =>
      obtain ⟨reply, -, hmiddle, hnext⟩ := hstep
      cases call with
      | addTrade trade =>
          obtain ⟨after, hafter, hholds'⟩ := hholds.addTrade hcapacity trade
          obtain ⟨hadded, rfl⟩ := hnext.resolve_right fun hlost => hnever hlost.1.fails
          obtain rfl := Except.ok.inj (hafter.symm.trans hadded)
          rw [ih hholds', hmiddle, replies, List.append_assoc]
          rfl
      | getTrades maxTrades =>
          obtain ⟨hsame, rfl⟩ := hnext
          rw [ih (hsame ▸ hholds), hmiddle, replies, List.append_assoc, TradeHistory.getTrades,
            TradeHistory.copyTrades_eq, hholds.records, Int.sub_zero]
          rfl

/-- From `trade_history_create` to `trade_history_destroy`, with room for a trade at least,
whatever is added and read and whenever an allocation fails: no call reads or frees what is
not allocated, the heap at the end is the one before, and every call replies and acts as the
history does, or is refused memory on the heap that it finds. When no memory is refused the
replies are the trades that are kept. -/
theorem history_restores_heap (allocator : Allocator (HistoryCell α)) (capacity : Int)
    (hcapacity : 1 ≤ capacity) (calls : List (HistoryCall α)) (fuel : Nat)
    (hfuel : calls.length ≤ fuel) (heap : Heap (HistoryCell α)) :
    ∃ result, (component allocator fuel capacity).live calls heap = some (result, heap) ∧
      (represents fuel hcapacity).Outcome allocator calls heap result ∧
      (¬ allocator.Refuses (fun allocator => (component allocator fuel capacity).live calls) heap →
        result = some (replies capacity [] calls)) := by
  have hready : (represents fuel hcapacity).ready (represents fuel hcapacity).start calls := by
    refine ⟨⟨rfl, ?_, rfl⟩, ?_⟩
    · exact zero_le_one.trans hcapacity
    · simpa [represents, TradeHistory.create] using hfuel
  refine (represents fuel hcapacity).live_replies allocator hready heap
    fun _ hnever _ _ _ hpath => ?_
  obtain ⟨history, hcreated, hholds⟩ := TradeHistory.addTrades_holds hcapacity (α := α) []
  obtain rfl := Except.ok.inj hcreated
  exact replies_of_path hnever hcapacity hpath hholds

theorem history_restores_heap_full :
    ∃ result, (component Allocator.highest 4 1).live
        [.addTrade (TradeHistory.tradeAt 1), .addTrade (TradeHistory.tradeAt 2),
          .getTrades 5] ∅ = some (result, ∅) ∧
      (represents 4 (Int.le_refl 1)).Outcome Allocator.highest
        [.addTrade (TradeHistory.tradeAt 1), .addTrade (TradeHistory.tradeAt 2),
          .getTrades 5] ∅ result ∧
      (¬ (Allocator.highest : Allocator (HistoryCell Int)).Refuses (fun allocator =>
          (component allocator 4 1).live [.addTrade (TradeHistory.tradeAt 1),
            .addTrade (TradeHistory.tradeAt 2), .getTrades 5]) ∅ →
        result = some (replies 1 [] [.addTrade (TradeHistory.tradeAt 1),
          .addTrade (TradeHistory.tradeAt 2), .getTrades 5])) :=
  history_restores_heap Allocator.highest 1 (Int.le_refl 1) _ 4 (by decide) ∅

end HistoryMemory

end QuantTrading
