import QuantTrading.Engine.BookPrograms
import QuantTrading.Engine.TreeRuns
import Mathlib.Algebra.BigOperators.Group.Finset.Basic

/-! # What the book programs leave in memory

A book in memory is its record, its two trees and the orders they point to. Every
program of `BookPrograms` computes what the function on `Engine` computes; only an
addition may be lost, under an allocator that gives up on some heap.
-/

namespace QuantTrading

open Separation Separation.Assertion Separation.Triple TreeMemory

variable {α β : Type}

namespace BookMemory

/-! ## Orders in memory -/

/-- The orders at some addresses. -/
def ordersAt (owned : Finset Nat) (orders : Nat → Order α) : Assertion (EngineCell α) :=
  ∏ order ∈ owned, points order (.order (orders order))

section Orders

variable {owned : Finset Nat} {orders : Nat → Order α} {order : Nat}
  {other : Assertion (EngineCell α)} {post : β → Assertion (EngineCell α)}

/-- One of the orders beside the others. -/
theorem ordersAt_split (horder : order ∈ owned) (orders : Nat → Order α) :
    ordersAt owned orders =
      points order (.order (orders order)) * ordersAt (owned.erase order) orders :=
  (Finset.mul_prod_erase owned _ horder).symm

theorem ordersAt_update (horder : order ∈ owned) (record : Order α) :
    ordersAt owned (Function.update orders order record) =
      points order (.order record) * ordersAt (owned.erase order) orders := by
  rw [ordersAt_split horder, Function.update_self]
  congr 1
  refine Finset.prod_congr rfl fun other hother => ?_
  rw [Function.update_of_ne (Finset.ne_of_mem_erase hother)]

theorem loadOrder_bind (horder : order ∈ owned) {next : Order α → Program (EngineCell α) β}
    (hnext : Triple (ordersAt owned orders * other) (next (orders order)) post) :
    Triple (ordersAt owned orders * other) (loadOrder order >>= next) post := by
  have hwhole : ordersAt owned orders * other =
      points order (.order (orders order)) * (ordersAt (owned.erase order) orders * other) := by
    rw [ordersAt_split horder, mul_assoc]
  rw [loadOrder, bind_assoc]
  exact load_bind hwhole hnext

/-- Rewriting one order. -/
theorem storeOrder_bind (horder : order ∈ owned) (record : Order α)
    {next : Unit → Program (EngineCell α) β}
    (hnext : Triple (ordersAt owned (Function.update orders order record) * other)
      (next ()) post) :
    Triple (ordersAt owned orders * other)
      (Program.store (some order) (.order record) >>= next) post := by
  rw [ordersAt_split horder, mul_assoc]
  rw [ordersAt_update horder, mul_assoc] at hnext
  exact store_bind rfl hnext

theorem orderReduceQuantity_bind (horder : order ∈ owned) (amount : Int)
    {next : Int → Program (EngineCell α) β}
    (hnext : Triple (ordersAt owned (Function.update orders order
        ((orders order).reduceQuantity amount).2) * other)
      (next ((orders order).reduceQuantity amount).1) post) :
    Triple (ordersAt owned orders * other)
      (orderReduceQuantity order amount >>= next) post := by
  rw [orderReduceQuantity, bind_assoc]
  refine loadOrder_bind horder ?_
  rw [bind_assoc]
  exact storeOrder_bind horder _ hnext

end Orders

/-! ## The matching loop -/

section Matching

variable [LT α] [DecidableLT α]

/-- The call of the broadcaster in `process_match`. -/
def matchEvent (state : Engine α Nat) (buy sell : Nat) : TradeEvent α Nat where
  buyOrder := buy
  sellOrder := sell
  symbol := (state.reducedOrders buy sell buy).symbol
  buyOrderId := (state.reducedOrders buy sell buy).orderId
  sellOrderId := (state.reducedOrders buy sell sell).orderId
  price := (state.reducedOrders buy sell sell).price
  quantity := state.matchQuantity buy sell

variable {owned : Finset Nat} {state : Engine α Nat} {buy sell : Nat}
  {other : Assertion (EngineCell α)} {post : β → Assertion (EngineCell α)}

omit [LT α] [DecidableLT α] in
theorem processMatch_bind (hbuy : buy ∈ owned) (hsell : sell ∈ owned)
    {next : TradeEvent α Nat → Program (EngineCell α) β}
    (hnext : Triple (ordersAt owned (state.processMatch buy sell).orders * other)
      (next (matchEvent state buy sell)) post) :
    Triple (ordersAt owned state.orders * other)
      (processMatch buy sell >>= next) post := by
  simp only [processMatch, bind_assoc, pure_bind]
  refine loadOrder_bind hbuy (loadOrder_bind hsell ?_)
  refine orderReduceQuantity_bind hbuy _ (orderReduceQuantity_bind hsell _ ?_)
  exact loadOrder_bind hbuy (loadOrder_bind hsell hnext)

variable [BEq α]

theorem removeFilled_bind {tree : AVLTree α Nat} {orders : Nat → Order α}
    {address order depth : Nat} (horder : order ∈ owned) (hdepth : tree.root.height ≤ depth)
    {next : Unit → Program (EngineCell α) β}
    (hnext : Triple (recordAt address (if (orders order).remainingQuantity = 0 then
        tree.deleteOrder (orders order).price (orders order).timestamp else tree) *
      (ordersAt owned orders * other)) (next ()) post) :
    Triple (recordAt address tree * (ordersAt owned orders * other))
      (removeFilled depth (some address) order >>= next) post := by
  rw [removeFilled, bind_assoc, mul_left_comm]
  apply loadOrder_bind horder
  rw [mul_left_comm]
  split_ifs at hnext ⊢
  · exact (avlDeleteOrder_spec hdepth _ _).bind fun _ => hnext
  · exact hnext

/-- The two trees of a book and the orders. -/
def contentsAt (buyOrders sellOrders : Nat) (owned : Finset Nat) (state : Engine α Nat) :
    Assertion (EngineCell α) :=
  recordAt buyOrders state.book.buyOrders *
    (recordAt sellOrders state.book.sellOrders * ordersAt owned state.orders)

/-- The trees only point to orders in memory, and have no more than `bound` entries. -/
structure Fits (bound : Nat) (owned : Finset Nat) (state : Engine α Nat) : Prop where
  stored : ∀ isBuyOrder, ∀ order ∈ (state.book.side isBuyOrder).orders, order ∈ owned
  small : ∀ isBuyOrder, (state.book.side isBuyOrder).entries.length ≤ bound

variable {buyOrders sellOrders depth bound : Nat}

omit [LT α] [DecidableLT α] [BEq α] in
theorem Fits.buy_height (hfits : Fits bound owned state)
    (hdepth : bound + 1 < Nat.fib (depth + 2)) : state.book.buyOrders.root.height < depth :=
  AVLTree.height_lt ((Nat.succ_le_succ (hfits.small true)).trans_lt hdepth)

omit [LT α] [DecidableLT α] [BEq α] in
theorem Fits.sell_height (hfits : Fits bound owned state)
    (hdepth : bound + 1 < Nat.fib (depth + 2)) : state.book.sellOrders.root.height < depth :=
  AVLTree.height_lt ((Nat.succ_le_succ (hfits.small false)).trans_lt hdepth)

/-- A round of the loop only deletes from the trees. -/
theorem Fits.tradePair (hfits : Fits bound owned state) (buy sell : Nat) :
    Fits bound owned (state.tradePair buy sell) := by
  have hside : ∀ isBuyOrder, (state.tradePair buy sell).book.side isBuyOrder =
      state.book.side isBuyOrder ∨ ∃ price timestamp,
        (state.tradePair buy sell).book.side isBuyOrder =
          (state.book.side isBuyOrder).deleteOrder price timestamp := by
    intro isBuyOrder
    cases isBuyOrder with
    | true =>
        have htree := Engine.tradePair_buyOrders state buy sell
        split_ifs at htree
        · exact Or.inr ⟨_, _, htree⟩
        · exact Or.inl htree
    | false =>
        have htree := Engine.tradePair_sellOrders state buy sell
        split_ifs at htree
        · exact Or.inr ⟨_, _, htree⟩
        · exact Or.inl htree
  constructor
  · intro isBuyOrder order horder
    rcases hside isBuyOrder with hsame | ⟨price, timestamp, hdelete⟩
    · exact hfits.stored isBuyOrder order (hsame ▸ horder)
    · rw [hdelete] at horder
      exact hfits.stored isBuyOrder order (AVLTree.mem_orders_of_mem_deleteOrder horder)
  · intro isBuyOrder
    have hsmall := hfits.small isBuyOrder
    rcases hside isBuyOrder with hsame | ⟨price, timestamp, hdelete⟩
    · rwa [hsame]
    · have hle : ((state.book.side isBuyOrder).deleteOrder price timestamp).entries.length ≤
          (state.book.side isBuyOrder).entries.length :=
        AVLNode.deleteNode_length_le
          ((state.book.side isBuyOrder).deleteNode_eq_some price timestamp)
      rw [hdelete]
      exact hle.trans hsmall

omit [LT α] [DecidableLT α] [BEq α] in
/-- The best orders of both sides. -/
theorem bestOrders_bind (hfits : Fits bound owned state)
    (hdepth : bound + 1 < Nat.fib (depth + 2))
    {next : Option Nat → Option Nat → Program (EngineCell α) β}
    (hnext : Triple (contentsAt buyOrders sellOrders owned state * other)
      (next state.book.buyOrders.findMax state.book.sellOrders.findMin) post) :
    Triple (contentsAt buyOrders sellOrders owned state * other)
      (avlFindMax depth (some buyOrders) >>= fun bestBuy =>
        avlFindMin depth (some sellOrders) >>= fun bestSell => next bestBuy bestSell) post := by
  have hbuy : contentsAt buyOrders sellOrders owned state * other =
      recordAt buyOrders state.book.buyOrders *
        (recordAt sellOrders state.book.sellOrders * ordersAt owned state.orders * other) :=
    mul_assoc _ _ _
  have hsell : contentsAt buyOrders sellOrders owned state * other =
      recordAt sellOrders state.book.sellOrders *
        (recordAt buyOrders state.book.buyOrders * ordersAt owned state.orders * other) := by
    rw [contentsAt]
    ac_rfl
  rw [hbuy]
  apply (avlFindMax_spec (hfits.buy_height hdepth).le).read_bind
  rw [← hbuy, hsell]
  apply (avlFindMin_spec (hfits.sell_height hdepth).le).read_bind
  rwa [← hsell]

omit [LT α] [DecidableLT α] [BEq α] in
/-- Two orders that are in memory. -/
theorem loadPair_bind (hbuy : buy ∈ owned) (hsell : sell ∈ owned)
    {next : Order α → Order α → Program (EngineCell α) β}
    (hnext : Triple (contentsAt buyOrders sellOrders owned state * other)
      (next (state.orders buy) (state.orders sell)) post) :
    Triple (contentsAt buyOrders sellOrders owned state * other)
      (loadOrder buy >>= fun buy => loadOrder sell >>= fun sell => next buy sell) post := by
  have hfront : contentsAt buyOrders sellOrders owned state * other =
      ordersAt owned state.orders * (recordAt buyOrders state.book.buyOrders *
        (recordAt sellOrders state.book.sellOrders * other)) := by
    rw [contentsAt]
    ac_rfl
  rw [hfront]
  apply loadOrder_bind hbuy
  apply loadOrder_bind hsell
  rwa [← hfront]

/-- One round of the loop on a pair that matches. -/
theorem tradePair_bind (hfits : Fits bound owned state)
    (hdepth : bound + 1 < Nat.fib (depth + 2)) (hbuy : buy ∈ owned)
    (hsell : sell ∈ owned) {next : TradeEvent α Nat → Program (EngineCell α) β}
    (hnext : Triple (contentsAt buyOrders sellOrders owned (state.tradePair buy sell) * other)
      (next (matchEvent state buy sell)) post) :
    Triple (contentsAt buyOrders sellOrders owned state * other)
      (processMatch buy sell >>= fun trade => removeFilled depth (some buyOrders) buy >>=
        fun _ => removeFilled depth (some sellOrders) sell >>= fun _ => next trade) post := by
  refine Triple.reorder (ordersAt owned state.orders * (recordAt buyOrders state.book.buyOrders *
    (recordAt sellOrders state.book.sellOrders * other))) (by rw [contentsAt]; ac_rfl) ?_
  apply processMatch_bind hbuy hsell
  rw [mul_left_comm]
  apply removeFilled_bind hbuy (hfits.buy_height hdepth).le
  refine Triple.reorder (recordAt sellOrders state.book.sellOrders *
    (ordersAt owned (state.processMatch buy sell).orders * (recordAt buyOrders
      (state.tradePair buy sell).book.buyOrders * other))) ?_ ?_
  · rw [Engine.tradePair_buyOrders]
    change recordAt buyOrders (if (state.reducedOrders buy sell buy).remainingQuantity = 0 then
      _ else _) * (ordersAt owned (state.reducedOrders buy sell) * _) = _ *
        (ordersAt owned (state.reducedOrders buy sell) * _)
    ac_rfl
  apply removeFilled_bind hsell (hfits.sell_height hdepth).le
  refine Triple.reorder _ ?_ hnext
  rw [contentsAt, Engine.tradePair_sellOrders, Engine.tradePair_orders]
  change recordAt sellOrders (if (state.reducedOrders buy sell sell).remainingQuantity = 0 then
    _ else _) * (ordersAt owned (state.reducedOrders buy sell) * _) = _
  ac_rfl

omit [BEq α] in
/-- Looking at the best pair: it matches, or the caller goes on without a match. -/
theorem bestPair_bind (hfits : Fits bound owned state)
    (hdepth : bound + 1 < Nat.fib (depth + 2))
    {onMatch : Nat → Nat → Program (EngineCell α) β} {onNone onEmpty : Program (EngineCell α) β}
    (hmatch : ∀ buy sell, buy ∈ owned → sell ∈ owned → state.matchingPair = some (buy, sell) →
      Triple (contentsAt buyOrders sellOrders owned state * other) (onMatch buy sell) post)
    (hnone : state.matchingPair = none →
      Triple (contentsAt buyOrders sellOrders owned state * other) onNone post)
    (hempty : state.book.buyOrders.findMax = none ∨ state.book.sellOrders.findMin = none →
      Triple (contentsAt buyOrders sellOrders owned state * other) onEmpty post) :
    Triple (contentsAt buyOrders sellOrders owned state * other)
      (do
        let bestBuy ← avlFindMax depth (some buyOrders)
        let bestSell ← avlFindMin depth (some sellOrders)
        match bestBuy, bestSell with
        | some bestBuy, some bestSell => do
            let buy ← loadOrder bestBuy
            let sell ← loadOrder bestSell
            if isMatchPossible buy sell then onMatch bestBuy bestSell else onNone
        | _, _ => onEmpty) post := by
  apply bestOrders_bind hfits hdepth
  cases hmax : state.book.buyOrders.findMax with
  | none => exact hempty (Or.inl hmax)
  | some buy =>
      cases hmin : state.book.sellOrders.findMin with
      | none => exact hempty (Or.inr hmin)
      | some sell =>
          have hbuy := hfits.stored true buy (AVLTree.mem_orders_of_findMax hmax)
          have hsell := hfits.stored false sell (AVLTree.mem_orders_of_findMin hmin)
          apply loadPair_bind hbuy hsell
          split_ifs with hpossible
          · exact hmatch buy sell hbuy hsell
              (Engine.matchingPair_eq_some_iff.mpr ⟨hmax, hmin, hpossible⟩)
          · refine hnone (Option.eq_none_iff_forall_ne_some.mpr fun pair hpair => hpossible ?_)
            obtain ⟨hmax', hmin', hpossible'⟩ := Engine.matchingPair_eq_some_iff.mp hpair
            rw [hmax] at hmax'
            rw [hmin] at hmin'
            rwa [Option.some.inj hmax', Option.some.inj hmin']

omit [BEq α] in
/-- Without an order on one side no pair matches. -/
theorem matchingPair_of_empty
    (hempty : state.book.buyOrders.findMax = none ∨ state.book.sellOrders.findMin = none) :
    state.matchingPair = none := by
  unfold Engine.matchingPair
  rcases hempty with hmax | hmin
  · rw [hmax]
  · rw [hmin]
    cases state.book.buyOrders.findMax <;> rfl

/-- The loop follows the rounds of `matchOnce` to their end. -/
theorem matchLoop_spec (rounds : Nat) (hfits : Fits bound owned state)
    (hdepth : bound + 1 < Nat.fib (depth + 2))
    (hstuck : Engine.matchOnce (Transition.loop Engine.matchOnce rounds state) = none) :
    Triple (contentsAt buyOrders sellOrders owned state * other)
      (matchLoop depth (some buyOrders) (some sellOrders) (rounds + 1)) fun trades =>
        fact ((Transition.loop Engine.matchOnce rounds state).trades = state.trades ++ trades) *
          (contentsAt buyOrders sellOrders owned
            (Transition.loop Engine.matchOnce rounds state) * other) := by
  induction rounds generalizing state with
  | zero =>
      have hnone : state.matchingPair = none := Engine.matchOnce_eq_none_iff.mp hstuck
      have hend : Triple (contentsAt buyOrders sellOrders owned state * other)
          (Pure.pure ([] : List (TradeEvent α Nat))) fun trades =>
            fact (state.trades = state.trades ++ trades) *
              (contentsAt buyOrders sellOrders owned state * other) := by
        refine Triple.pure fun part hpart => fact_mul_apply.mpr ⟨?_, hpart⟩
        rw [List.append_nil]
      rw [matchLoop]
      refine bestPair_bind hfits hdepth (fun buy sell _ _ hpair => ?_) (fun _ => hend) fun _ => hend
      rw [hnone] at hpair
      cases hpair
  | succ rounds ih =>
      have hend : state.matchingPair = none →
          Triple (contentsAt buyOrders sellOrders owned state * other)
            (Pure.pure ([] : List (TradeEvent α Nat))) fun trades =>
              fact ((Transition.loop Engine.matchOnce (rounds + 1) state).trades =
                state.trades ++ trades) * (contentsAt buyOrders sellOrders owned
                  (Transition.loop Engine.matchOnce (rounds + 1) state) * other) := by
        intro hnone
        rw [Transition.loop_of_none (Engine.matchOnce_eq_none_iff.mpr hnone)]
        refine Triple.pure fun part hpart => fact_mul_apply.mpr ⟨?_, hpart⟩
        rw [List.append_nil]
      rw [matchLoop]
      refine bestPair_bind hfits hdepth (fun buy sell hbuy hsell hpair => ?_) hend
        fun hempty => hend (matchingPair_of_empty hempty)
      have hround : state.matchOnce = some (state.tradePair buy sell) :=
        Engine.matchOnce_eq_some_iff.mpr ⟨buy, sell, hpair, rfl⟩
      rw [Transition.loop_of_some hround] at hstuck ⊢
      apply tradePair_bind hfits hdepth hbuy hsell
      refine (ih (hfits.tradePair buy sell) hstuck).bind fun trades => of_fact_mul fun htrades => ?_
      refine Triple.pure fun part hpart => fact_mul_apply.mpr ⟨?_, hpart⟩
      rw [htrades, Engine.tradePair_trades, Engine.processMatch, List.append_assoc]
      rfl

/-! ## Cancellation -/

/-- The orders after the one that was found is cancelled. -/
def cancelFound (orders : Nat → Order α) : Option Nat → Nat → Order α
  | none => orders
  | some order => Function.update orders order (orders order).cancel

/-- The loop of `order_book_cancel_order` finds what `searchById` finds. -/
theorem cancelLoop_spec {tree : AVLNode α Nat} {pointer : Option Nat} (orderId : CString)
    (isBuyOrder : Bool) (surround : Assertion (EngineCell α)) (hbal : tree.Balanced)
    (hdepth : tree.height ≤ depth) (hstored : ∀ entry ∈ tree.toList, entry.order ∈ owned)
    (orders : Nat → Order α) :
    Triple (treeAt pointer tree * (surround * ordersAt owned orders))
      (cancelLoop orderId isBuyOrder depth pointer) fun result =>
        fact (result =
            if (Engine.searchById orders orderId isBuyOrder tree).isSome then 0 else -1) *
          (treeAt pointer tree * (surround * ordersAt owned
            (cancelFound orders (Engine.searchById orders orderId isBuyOrder tree)))) := by
  induction tree generalizing pointer depth surround with
  | nil =>
      apply know fun _ => pointer_of_nil
      rintro rfl
      unfold cancelLoop
      exact Triple.pure fun part hpart => fact_mul_apply.mpr ⟨rfl, hpart⟩
  | node entry left right height ihLeft ihRight =>
      obtain ⟨hheight, _, _, hleft, hright⟩ := hbal
      rw [HeightTree.height_node] at hdepth
      obtain _ | depth := depth
      · omega
      refine open_node fun address l r hpointer => ?_
      subst hpointer
      have horder : entry.order ∈ owned := hstored entry (by simp)
      have hfront : ∀ rest : Assertion (EngineCell α),
          nodeAt address entry l r height * (treeAt l left * (treeAt r right *
            (surround * rest))) =
          rest * (nodeAt address entry l r height *
            (treeAt l left * (treeAt r right * surround))) := by
        intro rest
        ac_rfl
      have hback : ∀ (rest : Assertion (EngineCell α)) (part : Heap (EngineCell α)),
          (nodeAt address entry l r height * (treeAt l left * (treeAt r right *
            (surround * rest)))) part →
          (treeAt (some address) (.node entry left right height) * (surround * rest)) part :=
        fun _ _ => treeAt_fold
      rw [cancelLoop]
      apply loadNode_bind
      rw [hfront]
      apply loadOrder_bind horder
      unfold Engine.searchById
      dsimp only
      by_cases hfound : (orders entry.order).orderId = orderId
      · rw [if_pos hfound, if_pos hfound, orderCancel, bind_assoc]
        apply loadOrder_bind horder
        apply storeOrder_bind horder
        refine Triple.pure fun part hpart => fact_mul_apply.mpr ⟨rfl, hback _ part ?_⟩
        rwa [hfront]
      · rw [if_neg hfound, if_neg hfound]
        by_cases hless : AVLNode.compareNodes entry.price entry.timestamp
            (orders entry.order).price (orders entry.order).timestamp isBuyOrder < 0
        · have hside : ∀ rest : Assertion (EngineCell α), treeAt l left *
              ((nodeAt address entry l r height * (treeAt r right * surround)) * rest) =
              nodeAt address entry l r height * (treeAt l left * (treeAt r right *
                (surround * rest))) := by
            intro rest
            ac_rfl
          rw [if_pos hless, if_pos hless, ← hfront, ← hside]
          refine (ihLeft _ hleft (by omega) fun entry' hentry' =>
            hstored entry' (by simp [hentry'])).weaken fun result part hpart => ?_
          rw [hside] at hpart
          obtain ⟨hresult, hpart⟩ := fact_mul_apply.mp hpart
          exact fact_mul_apply.mpr ⟨hresult, hback _ part hpart⟩
        · have hside : ∀ rest : Assertion (EngineCell α), treeAt r right *
              ((nodeAt address entry l r height * (treeAt l left * surround)) * rest) =
              nodeAt address entry l r height * (treeAt l left * (treeAt r right *
                (surround * rest))) := by
            intro rest
            ac_rfl
          rw [if_neg hless, if_neg hless, ← hfront, ← hside]
          refine (ihRight _ hright (by omega) fun entry' hentry' =>
            hstored entry' (by simp [hentry'])).weaken fun result part hpart => ?_
          rw [hside] at hpart
          obtain ⟨hresult, hpart⟩ := fact_mul_apply.mp hpart
          exact fact_mul_apply.mpr ⟨hresult, hback _ part hpart⟩

/-- The search from the record of a tree. -/
theorem cancelRecord_spec {tree : AVLTree α Nat} {address : Nat} (orderId : CString)
    (isBuyOrder : Bool) (surround : Assertion (EngineCell α)) (hdepth : tree.root.height ≤ depth)
    (hstored : ∀ order ∈ tree.orders, order ∈ owned) (orders : Nat → Order α) :
    Triple (recordAt address tree * (surround * ordersAt owned orders))
      (loadTree (some address) >>= fun fields => cancelLoop orderId isBuyOrder depth fields.1)
      fun result => fact (result =
          if (Engine.searchById orders orderId isBuyOrder tree.root).isSome then 0 else -1) *
        (recordAt address tree * (surround * ordersAt owned
          (cancelFound orders (Engine.searchById orders orderId isBuyOrder tree.root)))) := by
  refine open_record fun root => ?_
  apply loadTree_bind
  have hmove : ∀ rest : Assertion (EngineCell α),
      points address (.tree root tree.isBuyTree) * (treeAt root tree.root * (surround * rest)) =
      treeAt root tree.root * ((points address (.tree root tree.isBuyTree) * surround) * rest) := by
    intro rest
    ac_rfl
  rw [hmove]
  refine (cancelLoop_spec orderId isBuyOrder _ tree.balanced hdepth (fun entry hentry =>
    hstored entry.order (AVLTree.mem_orders.mpr ⟨entry, hentry, rfl⟩)) orders).weaken
      fun result part hpart => ?_
  rw [← hmove] at hpart
  obtain ⟨hresult, hpart⟩ := fact_mul_apply.mp hpart
  exact fact_mul_apply.mpr ⟨hresult, recordAt_intro hpart⟩

end Matching

end BookMemory

end QuantTrading
