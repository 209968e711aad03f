import QuantTrading.Engine.BookRuns
import Mathlib.Algebra.BigOperators.Group.Finset.Piecewise
import Mathlib.Algebra.Order.BigOperators.Group.List
import Mathlib.Algebra.Order.Ring.Int

/-! # The trade ledger

The trades sent to the broadcaster account for everything the orders of a run
have lost of their quantity. `process_match` ignores the return codes of the two
reductions; they always succeed, because the loop only matches live orders. All
of this holds for prices compared in any way.
-/

namespace QuantTrading

variable {α ι : Type*}

/-- The trade names the order on one of its sides. -/
def TradeEvent.Names (event : TradeEvent α ι) (order : ι) : Prop :=
  event.buyOrder = order ∨ event.sellOrder = order

instance [DecidableEq ι] (event : TradeEvent α ι) (order : ι) : Decidable (event.Names order) :=
  inferInstanceAs (Decidable (_ ∨ _))

/-- The quantities of the trades that name the order. -/
def tradedQuantity [DecidableEq ι] (trades : List (TradeEvent α ι)) (order : ι) : Int :=
  ((trades.filter fun event => event.Names order).map TradeEvent.quantity).sum

theorem tradedQuantity_append [DecidableEq ι] (first second : List (TradeEvent α ι)) (order : ι) :
    tradedQuantity (first ++ second) order =
      tradedQuantity first order + tradedQuantity second order := by
  simp [tradedQuantity]

theorem tradedQuantity_singleton [DecidableEq ι] (event : TradeEvent α ι) (order : ι) :
    tradedQuantity [event] order =
      if event.buyOrder = order ∨ event.sellOrder = order then event.quantity else 0 := by
  unfold tradedQuantity TradeEvent.Names
  by_cases hnames : event.buyOrder = order ∨ event.sellOrder = order <;> simp [hnames]

theorem tradedQuantity_nonneg [DecidableEq ι] {trades : List (TradeEvent α ι)}
    (hpos : ∀ event ∈ trades, 0 < event.quantity) (order : ι) :
    0 ≤ tradedQuantity trades order := by
  apply List.sum_nonneg
  intro quantity hquantity
  obtain ⟨event, hevent, rfl⟩ := List.mem_map.mp hquantity
  exact (hpos event (List.mem_of_mem_filter hevent)).le

/-- Summing over the orders that stand on one side of every trade counts each trade
once. -/
theorem sum_tradedQuantity [DecidableEq ι] {trades : List (TradeEvent α ι)} {traded : Finset ι}
    (party : TradeEvent α ι → ι) (hmem : ∀ event ∈ trades, party event ∈ traded)
    (hparty : ∀ event ∈ trades, ∀ order ∈ traded,
      event.buyOrder = order ∨ event.sellOrder = order ↔ party event = order) :
    ∑ order ∈ traded, tradedQuantity trades order = (trades.map TradeEvent.quantity).sum := by
  induction trades with
  | nil => simp [tradedQuantity]
  | cons event rest ih =>
      have hrest := ih (fun other hother => hmem other (List.mem_cons_of_mem _ hother))
        fun other hother => hparty other (List.mem_cons_of_mem _ hother)
      have hevent : ∑ order ∈ traded, tradedQuantity [event] order = event.quantity := by
        have hone : ∀ order ∈ traded, tradedQuantity [event] order =
            if party event = order then event.quantity else 0 := by
          intro order horder
          rw [tradedQuantity_singleton]
          exact if_congr (hparty event List.mem_cons_self order horder) rfl rfl
        rw [Finset.sum_congr rfl hone, Finset.sum_ite_eq, if_pos (hmem event List.mem_cons_self)]
      have hsplit : ∀ order, tradedQuantity (event :: rest) order =
          tradedQuantity [event] order + tradedQuantity rest order :=
        tradedQuantity_append [event] rest
      simp only [hsplit, Finset.sum_add_distrib, hevent, hrest, List.map_cons, List.sum_cons]

/-- Two prices that `<` and `<=` can compare, as all are but NaN. -/
def Comparable [LT α] [LE α] (first second : α) : Prop :=
  first < second ∨ second ≤ first

namespace Engine

/-- A trade that `process_match` may send in a state. -/
structure SoundTrade [LT α] [LE α] (state : Engine α ι) (event : TradeEvent α ι) : Prop where
  buySide : (state.orders event.buyOrder).isBuyOrder = true
  sellSide : (state.orders event.sellOrder).isBuyOrder = false
  buySymbol : (state.orders event.buyOrder).symbol = event.symbol
  sellSymbol : (state.orders event.sellOrder).symbol = event.symbol
  buyOrderId : event.buyOrderId = (state.orders event.buyOrder).orderId
  sellOrderId : event.sellOrderId = (state.orders event.sellOrder).orderId
  buyActive : (state.orders event.buyOrder).isCanceled = false
  sellActive : (state.orders event.sellOrder).isCanceled = false
  quantity : event.quantity = min (state.orders event.buyOrder).remainingQuantity
    (state.orders event.sellOrder).remainingQuantity
  quantity_pos : 0 < event.quantity
  price : event.price = (state.orders event.sellOrder).price
  price_le : Comparable (state.orders event.buyOrder).price event.price →
    event.price ≤ (state.orders event.buyOrder).price
  buyReduced : ((state.orders event.buyOrder).reduceQuantity event.quantity).1 = 0
  sellReduced : ((state.orders event.sellOrder).reduceQuantity event.quantity).1 = 0

variable [LT α] [DecidableLT α] [BEq α] [DecidableEq ι]

omit [DecidableEq ι] in
theorem Traded.soundTrade [LE α] {state state' : Engine α ι} {buy sell : ι}
    (htraded : Traded state state' buy sell) (haligned : state.Aligned) :
    ∃ event, state'.trades = state.trades ++ [event] ∧ SoundTrade state event ∧
      event.buyOrder = buy ∧ event.sellOrder = sell := by
  refine ⟨_, htraded.trades, ?_, rfl, rfl⟩
  have hreduced := reduceQuantity_succeeds htraded.buyLive htraded.sellLive
  refine
    { buySide := haligned.buy.side_of_mem htraded.buy_mem
      sellSide := haligned.sell.side_of_mem htraded.sell_mem
      buySymbol := rfl
      sellSymbol := htraded.symbol.symm
      buyOrderId := rfl
      sellOrderId := rfl
      buyActive := htraded.buyLive.1
      sellActive := htraded.sellLive.1
      quantity := state.matchQuantity_eq_min buy sell
      quantity_pos := htraded.quantity_pos.1
      price := rfl
      price_le := ?_
      buyReduced := hreduced.1
      sellReduced := hreduced.2 }
  intro hcomparable
  exact hcomparable.resolve_left htraded.crossing

/-- What an iteration takes from an order it adds to the trades that name it. -/
theorem Traded.tradedQuantity_eq {state state' : Engine α ι} {buy sell : ι}
    (htraded : Traded state state' buy sell) (order : ι) :
    tradedQuantity state'.trades order = tradedQuantity state.trades order +
      ((state.orders order).remainingQuantity - (state'.orders order).remainingQuantity) := by
  rw [htraded.trades, tradedQuantity_append, tradedQuantity_singleton]
  by_cases hnames : buy = order ∨ sell = order
  · rw [if_pos hnames]
    rcases hnames with rfl | rfl
    · rw [htraded.buyAfter]
      dsimp only
      omega
    · rw [htraded.sellAfter]
      dsimp only
      omega
  · rw [if_neg hnames, htraded.others order (fun h => hnames (Or.inl h.symm))
      (fun h => hnames (Or.inr h.symm)), sub_self]

/-- The ledger accounts for the orders, which were created as in `orders`. -/
structure Accounted (orders : ι → Order α) (state : Engine α ι) : Prop where
  aligned : state.Aligned
  sameTerms : SameTerms orders state.orders
  balance : ∀ order, (state.orders order).quantity - (state.orders order).remainingQuantity =
    tradedQuantity state.trades order
  positive : ∀ event ∈ state.trades, 0 < event.quantity
  sides : ∀ event ∈ state.trades, (orders event.buyOrder).isBuyOrder = true ∧
    (orders event.sellOrder).isBuyOrder = false
  notOverfilled : ∀ order, 0 ≤ (state.orders order).remainingQuantity ∨
    (state.orders order).remainingQuantity = (state.orders order).quantity

namespace Accounted

variable {orders : ι → Order α} {state state' : Engine α ι}

omit [LT α] [DecidableLT α] [BEq α] in
theorem init (hfresh : ∀ order, (orders order).Fresh) : Accounted orders (Engine.init orders) := by
  refine ⟨init_aligned orders, SameTerms.refl orders, ?_, ?_, ?_, ?_⟩
  · intro order
    simp [Engine.init, tradedQuantity, (hfresh order).unfilled]
  · simp [Engine.init]
  · simp [Engine.init]
  · intro order
    exact Or.inr (hfresh order).unfilled

theorem matchOnce (haccounted : Accounted orders state)
    (hnext : state.matchOnce = some state') : Accounted orders state' := by
  obtain ⟨buy, sell, htraded⟩ := haccounted.aligned.traded hnext
  obtain ⟨hquantity, hbuyLe, hsellLe⟩ := htraded.quantity_pos
  have hterms := htraded.sameTerms
  refine ⟨htraded.aligned haccounted.aligned, haccounted.sameTerms.trans hterms, ?_, ?_, ?_, ?_⟩
  · intro order
    rw [htraded.tradedQuantity_eq, ← haccounted.balance order, hterms.quantity]
    exact (sub_add_sub_cancel _ _ _).symm
  · intro event hevent
    rw [htraded.trades] at hevent
    rcases List.mem_append.mp hevent with hold | hnew
    · exact haccounted.positive event hold
    · rw [List.mem_singleton.mp hnew]
      exact hquantity
  · intro event hevent
    rw [htraded.trades] at hevent
    rcases List.mem_append.mp hevent with hold | hnew
    · exact haccounted.sides event hold
    · rw [List.mem_singleton.mp hnew, ← haccounted.sameTerms.isBuyOrder,
        ← haccounted.sameTerms.isBuyOrder]
      exact ⟨haccounted.aligned.buy.side_of_mem htraded.buy_mem,
        haccounted.aligned.sell.side_of_mem htraded.sell_mem⟩
  · intro order
    by_cases hside : order = buy ∨ order = sell
    · exact Or.inl (htraded.remaining_nonneg hside)
    · rw [htraded.others order (fun h => hside (Or.inl h)) (fun h => hside (Or.inr h))]
      exact haccounted.notOverfilled order

theorem perform (haccounted : Accounted orders state) (op : BookOp ι) :
    Accounted orders (state.perform op) := by
  have haligned := haccounted.aligned.perform op
  have hterms := haccounted.sameTerms.trans (perform_sameTerms haccounted.aligned op)
  cases op with
  | add order =>
      simp only [Engine.perform] at haligned hterms ⊢
      rw [addOrder_eq] at haligned hterms ⊢
      exact ⟨haligned, hterms, haccounted.balance, haccounted.positive, haccounted.sides,
        haccounted.notOverfilled⟩
  | cancel orderId isBuyOrder =>
      have hsame := state.cancelOrder_sameTerms orderId isBuyOrder
      have hremaining := state.cancelOrder_remaining orderId isBuyOrder
      have htrades := state.cancelOrder_trades orderId isBuyOrder
      refine ⟨haligned, hterms, ?_, htrades ▸ haccounted.positive, htrades ▸ haccounted.sides, ?_⟩
      · intro order
        simp only [Engine.perform]
        rw [hsame.quantity, hremaining, htrades]
        exact haccounted.balance order
      · intro order
        simp only [Engine.perform]
        rw [hsame.quantity, hremaining]
        exact haccounted.notOverfilled order
  | matchOrders =>
      exact matchOrders_invariant (Accounted orders) (fun _ _ h hnext => h.matchOnce hnext)
        haccounted

theorem run (hfresh : ∀ order, (orders order).Fresh) (ops : List (BookOp ι)) :
    Accounted orders (Transition.run Engine.perform (Engine.init orders) ops) :=
  Transition.run_invariant Engine.perform (Accounted orders) (fun _ op h => h.perform op)
    (init hfresh) ops

omit [LT α] [DecidableLT α] [BEq α] in
/-- No order trades more than its quantity. -/
theorem tradedQuantity_le (haccounted : Accounted orders state) (order : ι) :
    tradedQuantity state.trades order ≤ max 0 (orders order).quantity := by
  have hbalance := haccounted.balance order
  have hbound := haccounted.notOverfilled order
  rw [haccounted.sameTerms.quantity] at hbalance hbound
  omega

omit [LT α] [DecidableLT α] [BEq α] in
/-- What the buy orders have lost is what the sell orders have lost. -/
theorem bought_eq_sold (haccounted : Accounted orders state) {traded : Finset ι}
    (htraded : ∀ event ∈ state.trades, event.buyOrder ∈ traded ∧ event.sellOrder ∈ traded) :
    ∑ order ∈ traded with (orders order).isBuyOrder = true,
        ((state.orders order).quantity - (state.orders order).remainingQuantity) =
      ∑ order ∈ traded with (orders order).isBuyOrder = false,
        ((state.orders order).quantity - (state.orders order).remainingQuantity) := by
  simp only [haccounted.balance]
  rw [sum_tradedQuantity TradeEvent.buyOrder,
    sum_tradedQuantity TradeEvent.sellOrder]
  · intro event hevent
    exact Finset.mem_filter.mpr ⟨(htraded event hevent).2, (haccounted.sides event hevent).2⟩
  · intro event hevent order horder
    refine ⟨fun h => h.resolve_left ?_, Or.inr⟩
    rintro rfl
    have hbuy := (haccounted.sides event hevent).1
    rw [(Finset.mem_filter.mp horder).2] at hbuy
    exact Bool.noConfusion hbuy
  · intro event hevent
    exact Finset.mem_filter.mpr ⟨(htraded event hevent).1, (haccounted.sides event hevent).1⟩
  · intro event hevent order horder
    refine ⟨fun h => h.resolve_right ?_, Or.inl⟩
    rintro rfl
    have hsell := (haccounted.sides event hevent).2
    rw [(Finset.mem_filter.mp horder).2] at hsell
    exact Bool.noConfusion hsell

end Accounted

/-! ## A cancelled order never trades again -/

/-- Since the trades `past`, the order is cancelled and no trade has named it. -/
structure Retired (past : List (TradeEvent α ι)) (order : ι) (state : Engine α ι) : Prop where
  aligned : state.Aligned
  canceled : (state.orders order).isCanceled = true
  unnamed : ∃ events, state.trades = past ++ events ∧ ∀ event ∈ events, ¬ event.Names order

namespace Retired

variable {past : List (TradeEvent α ι)} {order : ι} {state state' : Engine α ι}

theorem matchOnce (hretired : Retired past order state)
    (hnext : state.matchOnce = some state') : Retired past order state' := by
  obtain ⟨buy, sell, htraded⟩ := hretired.aligned.traded hnext
  obtain ⟨events, hevents, hunnamed⟩ := hretired.unnamed
  have hcanceled := hretired.canceled
  refine ⟨htraded.aligned hretired.aligned, ?_, ?_⟩
  · rw [htraded.isCanceled]
    exact hcanceled
  · rw [htraded.trades, hevents, List.append_assoc]
    refine ⟨_, rfl, ?_⟩
    intro event hevent
    rcases List.mem_append.mp hevent with hold | hnew
    · exact hunnamed event hold
    · rw [List.mem_singleton.mp hnew]
      rintro (hbuy | hsell)
      · have hactive := htraded.buyLive.1
        rw [show buy = order from hbuy, hcanceled] at hactive
        exact Bool.noConfusion hactive
      · have hactive := htraded.sellLive.1
        rw [show sell = order from hsell, hcanceled] at hactive
        exact Bool.noConfusion hactive

theorem perform (hretired : Retired past order state) (op : BookOp ι) :
    Retired past order (state.perform op) := by
  have haligned := hretired.aligned.perform op
  cases op with
  | add added =>
      simp only [Engine.perform] at haligned ⊢
      rw [addOrder_eq] at haligned ⊢
      exact ⟨haligned, hretired.canceled, hretired.unnamed⟩
  | cancel orderId isBuyOrder =>
      have htrades := state.cancelOrder_trades orderId isBuyOrder
      refine ⟨haligned, ?_, htrades ▸ hretired.unnamed⟩
      exact state.cancelOrder_keeps_canceled orderId isBuyOrder hretired.canceled
  | matchOrders =>
      exact matchOrders_invariant (Retired past order) (fun _ _ h hnext => h.matchOnce hnext)
        hretired

end Retired

/-! ## The ledger of a run -/

/-- The states in which a call sends trades. -/
def tradingStates (state : Engine α ι) : BookOp ι → List (Engine α ι)
  | .add _ => []
  | .cancel _ _ => []
  | .matchOrders => state.matchStates

/-- The trades of a call are sound in the states in which they are sent. -/
theorem Aligned.perform_trades [LE α] {state : Engine α ι} (haligned : state.Aligned)
    (op : BookOp ι) :
    ∃ events, (state.perform op).trades = state.trades ++ events ∧
      List.Forall₂ SoundTrade (state.tradingStates op) events := by
  cases op with
  | add order =>
      refine ⟨[], ?_, .nil⟩
      rw [Engine.perform, addOrder_eq, List.append_nil]
  | cancel orderId isBuyOrder =>
      refine ⟨[], ?_, .nil⟩
      rw [Engine.perform, cancelOrder_trades, List.append_nil]
  | matchOrders =>
      refine matchOrders_trades Aligned ?_ haligned
      intro visited next hvisited hnext
      obtain ⟨buy, sell, htraded⟩ := hvisited.traded hnext
      obtain ⟨event, hevent, hsound, _, _⟩ := htraded.soundTrade hvisited
      exact ⟨htraded.aligned hvisited, event, hevent, hsound⟩

/-- Every trade of a run on created orders is sound. At every point the trades that
name an order sum to what the order has lost, which is at most its quantity; a
cancelled order is named by no later trade; and the buy orders together have lost
what the sell orders have. -/
theorem run_ledger [LE α] (orders : ι → Order α) (hfresh : ∀ order, (orders order).Fresh)
    (ops : List (BookOp ι)) :
    let state := Transition.run Engine.perform (init orders) ops
    (∀ op, ∃ events, (state.perform op).trades = state.trades ++ events ∧
      List.Forall₂ SoundTrade (state.tradingStates op) events) ∧
    (∀ visited ∈ state :: state.matchStates, ∀ order,
      (visited.orders order).quantity - (visited.orders order).remainingQuantity =
        tradedQuantity visited.trades order) ∧
    (∀ order, 0 ≤ tradedQuantity state.trades order ∧
      tradedQuantity state.trades order ≤ max 0 (orders order).quantity) ∧
    (∀ order later, (state.orders order).isCanceled = true →
      ∃ events, (Transition.run Engine.perform state later).trades = state.trades ++ events ∧
        ∀ event ∈ events, ¬ event.Names order) ∧
    ∀ traded : Finset ι,
      (∀ event ∈ state.trades, event.buyOrder ∈ traded ∧ event.sellOrder ∈ traded) →
      ∑ order ∈ traded with (orders order).isBuyOrder = true,
          ((state.orders order).quantity - (state.orders order).remainingQuantity) =
        ∑ order ∈ traded with (orders order).isBuyOrder = false,
          ((state.orders order).quantity - (state.orders order).remainingQuantity) := by
  intro state
  have haccounted : Accounted orders state := Accounted.run hfresh ops
  refine ⟨fun op => haccounted.aligned.perform_trades op, ?_, ?_, ?_, ?_⟩
  · intro visited hvisited
    rcases List.mem_cons.mp hvisited with rfl | hloop
    · exact haccounted.balance
    · exact (Transition.loopStates_invariant (Accounted orders)
        (fun _ _ h hnext => h.matchOnce hnext) _ haccounted hloop).1.balance
  · intro order
    exact ⟨tradedQuantity_nonneg haccounted.positive order, haccounted.tradedQuantity_le order⟩
  · intro order later hcanceled
    have hretired : Retired state.trades order state :=
      ⟨haccounted.aligned, hcanceled, [], (List.append_nil _).symm, by simp⟩
    exact (Transition.run_invariant Engine.perform (Retired state.trades order)
      (fun _ op h => h.perform op) hretired later).unnamed
  · intro traded htraded
    exact haccounted.bought_eq_sold htraded

/-- A bid for five that an offer of three fills in part. -/
theorem run_ledger_partial_fill :
    let state := Transition.run Engine.perform (init crossingOrders)
      [.add 0, .add 1, .matchOrders]
    (state.orders 0).quantity - (state.orders 0).remainingQuantity =
      tradedQuantity state.trades 0 ∧ tradedQuantity state.trades 0 = 3 :=
  ⟨(run_ledger crossingOrders crossingOrders_fresh [.add 0, .add 1, .matchOrders]).2.1 _
    List.mem_cons_self 0, by decide⟩

end Engine

end QuantTrading
