import QuantTrading.Engine.Cancellation
import QuantTrading.Engine.Fills
import QuantTrading.Engine.Traders
import Mathlib.Algebra.BigOperators.Group.Finset.Basic
import Mathlib.Algebra.BigOperators.Group.List.Basic
import Mathlib.Algebra.Order.BigOperators.Group.List
import Mathlib.Tactic.Linarith

/-! # The funds of a market

The funds are the balances of the traders and what is reserved for the live buy orders
in the book. Placing an order moves money from a balance to the reserve, and a trade
moves it on to the seller. But a trade pays the seller the price of the sell order and
releases the price of the buy order, a cancelled order keeps what was reserved for it,
and an order that the tree drops is paid for nevertheless. This module says in which
runs the funds stay the same.
-/

namespace QuantTrading

/-- Taking one element out of a sum over a list without duplicates. -/
theorem sum_map_eq_add_filter {β M : Type*} [DecidableEq β] [AddCommMonoid M] {list : List β}
    (hnodup : list.Nodup) {x : β} (hx : x ∈ list) (f : β → M) :
    (list.map f).sum = f x + ((list.filter fun y => y ≠ x).map f).sum := by
  have herase : list.erase x = list.filter fun y => y ≠ x := by
    rw [hnodup.erase_eq_filter]
    exact List.filter_congr fun y _ => (decide_not (p := y = x)).symm
  rw [← herase, List.sum_map_erase f hx]

variable {α ι κ : Type*} [CommRing α] [LinearOrder α]

/-- What is reserved for a buy order. -/
def Order.reserve (order : Order α) : α :=
  if order.Live then order.price * order.remainingQuantity else 0

/-- What `order_create` and the callers guarantee of an order: positive terms and an id
that fits its array. -/
structure Order.Tradable (order : Order α) : Prop where
  price_pos : 0 < order.price
  quantity_pos : 0 < order.quantity
  id_fits : order.orderId.length < maxIdLength

theorem Order.Tradable.congr {first second : Order α} (htradable : first.Tradable)
    (hterms : second.terms = first.terms) : second.Tradable := by
  have hprice : second.terms.price = first.terms.price := by rw [hterms]
  have hquantity : second.terms.quantity = first.terms.quantity := by rw [hterms]
  refine ⟨?_, ?_, ?_⟩
  · exact lt_of_lt_of_eq htradable.price_pos hprice.symm
  · exact lt_of_lt_of_eq htradable.quantity_pos hquantity.symm
  · rw [Order.orderId_eq_of_terms hterms]
    exact htradable.id_fits

/-- What is reserved for an order is what it costs exactly when it is fresh. -/
theorem Order.reserve_eq_iff_fresh [IsStrictOrderedRing α] (order : Order α)
    (htradable : order.Tradable) : order.reserve = order.price * order.quantity ↔ order.Fresh := by
  have hquantity := htradable.quantity_pos
  unfold Order.reserve
  split_ifs with hlive
  · rw [mul_right_inj' htradable.price_pos.ne', Int.cast_inj]
    exact ⟨fun hsame => ⟨hsame, hlive.1⟩, fun hfresh => hfresh.unfilled⟩
  · have hcost : 0 < order.price * (order.quantity : α) :=
      mul_pos htradable.price_pos (Int.cast_pos.mpr hquantity)
    refine iff_of_false hcost.ne fun hfresh => hlive ⟨hfresh.active, ?_⟩
    rw [hfresh.unfilled]
    exact hquantity

/-- What is reserved for the buy orders in the book. -/
def Engine.reserved (state : Engine α ι) : α :=
  (state.book.buyOrders.orders.map fun order => (state.orders order).reserve).sum

/-- The balances of the traders and what is reserved. -/
def Market.funds [Fintype κ] (market : Market α ι κ) : α :=
  ∑ trader, (market.traders trader).balance + market.engine.reserved

variable [DecidableEq ι]

/-! ## What a call does to the reserve -/

namespace Engine

omit [LinearOrder α] [DecidableEq ι] in
theorem reserved_congr {state : Engine α ι} {orders : ι → Order α}
    (hsame : ∀ order ∈ state.book.buyOrders.orders,
      (orders order).reserve = (state.orders order).reserve) :
    reserved { state with orders := orders } = state.reserved := by
  unfold reserved
  exact congrArg List.sum (List.map_congr_left hsame)

omit [DecidableEq ι] in
/-- What the buyer of a trade has left in reserve. -/
theorem Traded.buy_reserve {state state' : Engine α ι} {buy sell : ι}
    (htraded : Traded state state' buy sell) :
    (state'.orders buy).reserve = (state.orders buy).price *
      ((state.orders buy).remainingQuantity - state.matchQuantity buy sell : Int) := by
  obtain ⟨_, hle, _⟩ := htraded.quantity_pos
  rw [htraded.buyAfter, Order.reserve]
  split_ifs with hstill
  · rfl
  · have hzero : (state.orders buy).remainingQuantity - state.matchQuantity buy sell = 0 := by
      have hnotPos : ¬ 0 < (state.orders buy).remainingQuantity -
          state.matchQuantity buy sell := fun hpos => hstill ⟨htraded.buyLive.1, hpos⟩
      omega
    rw [hzero, Int.cast_zero, mul_zero]

/-- A trade releases the price of the buy order for every share. -/
theorem Traded.reserved {state state' : Engine α ι} {buy sell : ι}
    (htraded : Traded state state' buy sell) (hordered : state.Ordered) :
    state'.reserved + (state.orders buy).price * state.matchQuantity buy sell =
      state.reserved := by
  have hnodup := hordered.buySorted.nodup_orders hordered.aligned.buy
  have hbuy := htraded.buy_mem
  set rest := state.book.buyOrders.orders.filter fun order => order ≠ buy with hrest
  have hothers : (rest.map fun order => (state'.orders order).reserve) =
      rest.map fun order => (state.orders order).reserve := by
    apply List.map_congr_left
    intro order horder
    obtain ⟨hmem, hne⟩ := List.mem_filter.mp horder
    have hnotSell : order ≠ sell := hordered.aligned.ne_of_sides hmem htraded.sell_mem
    rw [htraded.others order (by simpa using hne) hnotSell]
  have hbefore : state.reserved = (state.orders buy).reserve +
      (rest.map fun order => (state.orders order).reserve).sum :=
    sum_map_eq_add_filter hnodup hbuy _
  have hafter : state'.reserved = (state'.orders buy).reserve +
      (rest.map fun order => (state'.orders order).reserve).sum := by
    unfold Engine.reserved
    rw [htraded.buyTree]
    split_ifs with hfilled
    · have hzero : (state'.orders buy).reserve = 0 := by
        rw [Order.reserve, if_neg]
        exact fun hlive => absurd hlive.2 (by omega)
      rw [hordered.buySorted.deleteOrder_orders_eq hordered.aligned.buy hbuy, hzero, zero_add]
    · exact sum_map_eq_add_filter hnodup hbuy _
  have hlive : (state.orders buy).reserve =
      (state.orders buy).price * (state.orders buy).remainingQuantity :=
    if_pos htraded.buyLive
  rw [hbefore, hafter, hothers, hlive, htraded.buy_reserve, Int.cast_sub]
  ring

/-- What a trade of a call of `order_book_match_orders` says: two orders of the book, the
price of the sell order, and not more than the buyer has offered. -/
structure FairTrade (before : Engine α ι) (event : TradeEvent α ι) : Prop where
  buy_mem : event.buyOrder ∈ before.book.buyOrders.orders
  sell_mem : event.sellOrder ∈ before.book.sellOrders.orders
  price_eq : event.price = (before.orders event.sellOrder).price
  price_le : event.price ≤ (before.orders event.buyOrder).price
  quantity_pos : 0 < event.quantity
  buyOrderId_eq : event.buyOrderId = (before.orders event.buyOrder).orderId
  sellOrderId_eq : event.sellOrderId = (before.orders event.sellOrder).orderId

/-- What a trade releases of the reserve. -/
def released (before : Engine α ι) (event : TradeEvent α ι) : α :=
  (before.orders event.buyOrder).price * event.quantity

/-- The second state follows from the first by matching, with these trades. The first of
them is that of the best pair. -/
structure Released (before after : Engine α ι) (events : List (TradeEvent α ι)) : Prop where
  matched : Matched before after
  sides : ∀ isBuyOrder, ∀ order ∈ (after.book.side isBuyOrder).orders,
    order ∈ (before.book.side isBuyOrder).orders
  trades : after.trades = before.trades ++ events
  fair : ∀ event ∈ events, before.FairTrade event
  reserved : after.reserved + (events.map before.released).sum = before.reserved
  first : (after = before ∧ events = []) ∨
    ∃ event ∈ events, before.matchingPair = some (event.buyOrder, event.sellOrder)

theorem Released.traded {before state state' : Engine α ι} {events : List (TradeEvent α ι)}
    (hreleased : Released before state events) {buy sell : ι}
    (htraded : Traded state state' buy sell) :
    ∃ event, Released before state' (events ++ [event]) := by
  have hmatched := hreleased.matched
  have hterms := hmatched.sameTerms
  let event : TradeEvent α ι :=
    { buyOrder := buy
      sellOrder := sell
      symbol := (state.orders buy).symbol
      buyOrderId := (state.orders buy).orderId
      sellOrderId := (state.orders sell).orderId
      price := (state.orders sell).price
      quantity := state.matchQuantity buy sell }
  refine ⟨event, hmatched.traded htraded, ?_, ?_, ?_, ?_, ?_⟩
  · exact fun isBuyOrder order horder =>
      hreleased.sides isBuyOrder order (htraded.mem_side isBuyOrder horder)
  · rw [htraded.trades, hreleased.trades, List.append_assoc]
  · intro other hother
    rcases List.mem_append.mp hother with hold | hnew
    · exact hreleased.fair other hold
    · rw [List.mem_singleton.mp hnew]
      refine ⟨hreleased.sides true buy htraded.buy_mem,
        hreleased.sides false sell htraded.sell_mem, hterms.price sell, ?_,
        htraded.quantity_pos.1, ?_, ?_⟩
      · rw [← hterms.price]
        exact not_lt.mp htraded.crossing
      · exact Order.orderId_eq_of_terms (hterms buy)
      · exact Order.orderId_eq_of_terms (hterms sell)
  · have hstep := htraded.reserved hmatched.ordered
    have hevent : before.released event =
        (state.orders buy).price * state.matchQuantity buy sell := by
      rw [released, ← hterms.price]
    rw [List.map_append, List.sum_append, List.map_singleton, List.sum_singleton, hevent,
      ← hreleased.reserved, ← hstep]
    ring
  · right
    rcases hreleased.first with ⟨rfl, _⟩ | ⟨found, hfound, hpair⟩
    · exact ⟨event, List.mem_append_right _ (List.mem_singleton_self _), htraded.matchingPair_eq⟩
    · exact ⟨found, List.mem_append_left _ hfound, hpair⟩

/-- What a call of `order_book_match_orders` does to the reserve. -/
theorem Ordered.released {state : Engine α ι} (hordered : state.Ordered) :
    ∃ events, Released state state.matchOrders events := by
  apply matchOrders_invariant fun current => ∃ events, Released state current events
  · rintro current next ⟨events, hreleased⟩ hnext
    obtain ⟨buy, sell, htraded⟩ := hreleased.matched.ordered.aligned.traded hnext
    obtain ⟨event, hafter⟩ := hreleased.traded htraded
    exact ⟨events ++ [event], hafter⟩
  · exact ⟨[], Matched.refl hordered, fun _ _ horder => horder, (List.append_nil _).symm, nofun,
      by simp, Or.inl ⟨rfl, rfl⟩⟩

/-- The best price of either side bounds the prices of all the trades. So when the best
prices are equal, all the trades of a call are made at one price. -/
theorem Released.spread_eq_zero_iff {before after : Engine α ι}
    {events : List (TradeEvent α ι)} (hreleased : Released before after events)
    (hordered : before.Ordered) (hstuck : after.matchingPair = none) :
    (∀ event ∈ events, event.price = (before.orders event.buyOrder).price) ↔
      ∀ pair ∈ before.matchingPair,
        (before.orders pair.1).price = (before.orders pair.2).price := by
  constructor
  · rintro hspread ⟨buy, sell⟩ hpair
    rw [Option.mem_def] at hpair
    rcases hreleased.first with ⟨heq, _⟩ | ⟨event, hevent, hfound⟩
    · rw [heq, hpair] at hstuck
      cases hstuck
    · cases hpair.symm.trans hfound
      rw [← hspread event hevent, (hreleased.fair event hevent).price_eq]
  · intro hbest event hevent
    have hfair := hreleased.fair event hevent
    rcases hreleased.first with ⟨_, rfl⟩ | ⟨best, _, hpair⟩
    · cases hevent
    · obtain ⟨hmax, hmin, _⟩ := matchingPair_eq_some_iff.mp hpair
      apply le_antisymm hfair.price_le
      calc (before.orders event.buyOrder).price
          ≤ (before.orders best.buyOrder).price :=
            hordered.buySorted.price_le_of_findMax hordered.aligned.buy hmax _ hfair.buy_mem
        _ = (before.orders best.sellOrder).price := hbest _ hpair
        _ ≤ (before.orders event.sellOrder).price :=
            hordered.sellSorted.price_ge_of_findMin hordered.aligned.sell hmin _ hfair.sell_mem
        _ = event.price := hfair.price_eq.symm

/-- Cancelling changes the reserve by that of the order that is found. -/
theorem Ordered.reserved_cancelOrder {state : Engine α ι} (hordered : state.Ordered)
    (orderId : CString) (isBuyOrder : Bool) :
    ((state.cancelOrder orderId isBuyOrder).2.reserved = state.reserved ∧
      (isBuyOrder = true →
        searchById state.orders orderId isBuyOrder (state.book.side isBuyOrder).root = none)) ∨
    ∃ order, isBuyOrder = true ∧
      searchById state.orders orderId isBuyOrder (state.book.side isBuyOrder).root =
        some order ∧
      (state.cancelOrder orderId isBuyOrder).2.reserved + (state.orders order).reserve =
        state.reserved := by
  rcases state.cancelOrder_cases orderId isBuyOrder with
    ⟨order, hsearch, hcancel⟩ | ⟨hsearch, hcancel⟩
  · obtain ⟨hmem, _⟩ := hordered.aligned.searchById_spec hsearch
    rw [hcancel]
    dsimp only
    cases isBuyOrder with
    | false =>
        refine Or.inl ⟨?_, fun hbuy => absurd hbuy (by simp)⟩
        apply reserved_congr
        intro other hother
        rw [Function.update_of_ne (hordered.aligned.ne_of_sides hother hmem)]
    | true =>
        right
        refine ⟨order, rfl, hsearch, ?_⟩
        have hnodup := hordered.buySorted.nodup_orders hordered.aligned.buy
        have hcanceled : Order.reserve { state.orders order with isCanceled := true } = 0 :=
          if_neg fun hlive => absurd hlive.1 (by simp)
        unfold Engine.reserved
        dsimp only
        rw [sum_map_eq_add_filter hnodup hmem, sum_map_eq_add_filter hnodup hmem,
          Function.update_self, hcanceled, zero_add, add_comm]
        congr 2
        apply List.map_congr_left
        intro other hother
        have hne : other ≠ order := by simpa using (List.mem_filter.mp hother).2
        rw [Function.update_of_ne hne]
  · rw [hcancel]
    exact Or.inl ⟨rfl, fun _ => hsearch⟩

omit [DecidableEq ι] in
/-- Adding a buy order reserves for it when its key is free, and else changes nothing. -/
theorem Ordered.reserved_addOrder {state : Engine α ι} (hordered : state.Ordered) {order : ι}
    (hbuy : (state.orders order).isBuyOrder = true) :
    (state.addOrder order).2.reserved =
      if ∀ other ∈ state.book.buyOrders.orders, (state.orders other).key ≠ (state.orders order).key
      then state.reserved + (state.orders order).reserve
      else state.reserved := by
  have hinsert := AVLTree.insert_entries hordered.buySorted (state.orders order).price
    (state.orders order).timestamp order
  unfold Engine.reserved
  rw [addOrder_eq]
  dsimp only
  rw [if_pos hbuy, AVLTree.orders, hinsert]
  split_ifs with hfree
  · have hother : ∀ entry ∈ state.book.buyOrders.entries,
        entry.key ≠ (Entry.of state.orders order).key := by
      intro entry hentry
      rw [(hordered.aligned.buy entry hentry).1]
      exact hfree _ (AVLTree.mem_orders.mpr ⟨entry, hentry, rfl⟩)
    obtain ⟨first, second, hold, hnew, _⟩ :=
      KeyedList.insertKey_eq_append hordered.buySorted hother
    change (List.map _ (List.map Entry.order
      (KeyedList.insertKey Entry.key (Entry.of state.orders order) _))).sum = _
    rw [hnew, AVLTree.orders, hold]
    simp only [List.map_append, List.map_cons, List.sum_append, List.sum_cons, Entry.of]
    ring
  · push Not at hfree
    obtain ⟨other, hother, hkey⟩ := hfree
    obtain ⟨entry, hentry, rfl⟩ := AVLTree.mem_orders.mp hother
    rw [KeyedList.insertKey_eq_self hordered.buySorted hentry]
    · rfl
    · rw [(hordered.aligned.buy entry hentry).1]
      exact hkey

/-- What the buyer of a trade has reserved and the seller does not get. -/
def spread (before : Engine α ι) (event : TradeEvent α ι) : α :=
  ((before.orders event.buyOrder).price - event.price) * event.quantity

/-- No money is lost when all the trades are made at the price of the buyer. -/
theorem Released.sum_spread_eq_zero_iff [IsStrictOrderedRing α] {before after : Engine α ι}
    {events : List (TradeEvent α ι)} (hreleased : Released before after events) :
    (events.map before.spread).sum = 0 ↔
      ∀ event ∈ events, event.price = (before.orders event.buyOrder).price := by
  constructor
  · intro hsum event hevent
    have hnonneg : ∀ event ∈ events, 0 ≤ before.spread event := by
      intro event hevent
      have hfair := hreleased.fair event hevent
      exact mul_nonneg (sub_nonneg.mpr hfair.price_le) (Int.cast_nonneg hfair.quantity_pos.le)
    have hzero : before.spread event = 0 :=
      List.all_zero_of_le_zero_le_of_sum_eq_zero (List.forall_mem_map.mpr hnonneg) hsum
        (List.mem_map_of_mem hevent)
    have hquantity : (event.quantity : α) ≠ 0 :=
      Int.cast_ne_zero.mpr (hreleased.fair event hevent).quantity_pos.ne'
    rw [spread, mul_eq_zero, or_iff_left hquantity] at hzero
    exact (sub_eq_zero.mp hzero).symm
  · intro hall
    apply List.sum_eq_zero
    intro lost hlost
    obtain ⟨event, hevent, rfl⟩ := List.mem_map.mp hlost
    rw [spread, hall event hevent, sub_self, zero_mul]

end Engine

/-! ## What a call does to the balances -/

section Balances

variable [IsStrictOrderedRing α] [DecidableEq κ] [Fintype κ]

omit [IsStrictOrderedRing α] in
theorem sum_balance_update (traders : κ → Trader α) (changed : κ) (trader : Trader α) :
    ∑ other, (Function.update traders changed trader other).balance =
      ∑ other, (traders other).balance - (traders changed).balance + trader.balance := by
  have hbefore := Finset.add_sum_erase Finset.univ (fun other => (traders other).balance)
    (Finset.mem_univ changed)
  have hafter := Finset.add_sum_erase Finset.univ
    (fun other => (Function.update traders changed trader other).balance) (Finset.mem_univ changed)
  have hothers : ∑ other ∈ Finset.univ.erase changed,
      (Function.update traders changed trader other).balance =
        ∑ other ∈ Finset.univ.erase changed, (traders other).balance := by
    apply Finset.sum_congr rfl
    intro other hother
    rw [Function.update_of_ne (Finset.ne_of_mem_erase hother)]
  rw [← hafter, hothers, Function.update_self, ← hbefore]
  ring

omit [DecidableEq ι] in
/-- A trade that can be created pays its seller. -/
theorem Market.sum_settle (owner : ι → κ) (traders : κ → Trader α) {event : TradeEvent α ι}
    (hprice : 0 < event.price) (hquantity : 0 < event.quantity)
    (hbuyId : event.buyOrderId.length < maxIdLength)
    (hsellId : event.sellOrderId.length < maxIdLength) :
    ∑ trader, (settle owner traders event trader).balance =
      ∑ trader, (traders trader).balance + event.price * event.quantity := by
  have hamount : 0 ≤ event.price * (event.quantity : α) :=
    mul_nonneg hprice.le (Int.cast_nonneg hquantity.le)
  have hids : ¬ (maxIdLength ≤ event.buyOrderId.length ∨
      maxIdLength ≤ event.sellOrderId.length) := by omega
  have hsolvent : ¬ (traders (owner event.sellOrder)).balance +
      event.price * (event.quantity : α) < 0 := by
    have hnonneg := (traders (owner event.sellOrder)).balance_nonneg
    exact not_lt.mpr (add_nonneg hnonneg hamount)
  rw [settle, Trade.create, if_neg (not_le.mpr hprice), if_neg (not_le.mpr hquantity),
    if_neg hids]
  dsimp only [Trade.execute]
  rw [sum_balance_update, Trader.updateBalance, dif_neg hsolvent]
  ring

omit [DecidableEq ι] in
/-- Trades of tradable orders pay their sellers. -/
theorem Market.sum_settleAll (owner : ι → κ) (traders : κ → Trader α) {before : Engine α ι}
    (htradable : ∀ order, (before.orders order).Tradable) {events : List (TradeEvent α ι)}
    (hfair : ∀ event ∈ events, before.FairTrade event) :
    ∑ trader, (events.foldl (settle owner) traders trader).balance =
      ∑ trader, (traders trader).balance +
        (events.map fun event => event.price * (event.quantity : α)).sum := by
  induction events generalizing traders with
  | nil => simp
  | cons event rest ih =>
      have hevent := hfair event List.mem_cons_self
      have hsell := htradable event.sellOrder
      have hbuy := htradable event.buyOrder
      have hrest := ih (settle owner traders event)
        fun other hother => hfair other (List.mem_cons_of_mem _ hother)
      have hpaid := sum_settle owner traders (hevent.price_eq ▸ hsell.price_pos)
        hevent.quantity_pos (hevent.buyOrderId_eq ▸ hbuy.id_fits)
        (hevent.sellOrderId_eq ▸ hsell.id_fits)
      rw [List.foldl_cons, hrest, hpaid, List.map_cons, List.sum_cons]
      ring

end Balances

/-! ## The funds -/

namespace Market

variable [IsStrictOrderedRing α] [DecidableEq κ]

/-- The call does not touch money that it does not account for. An order that is paid for
is fresh and its key is free, the best orders match at one price, and no live buy order is
cancelled. -/
def Balanced (market : Market α ι κ) : MarketOp ι κ → Prop
  | .place trader order =>
      let record := market.engine.orders order
      (market.traders trader).traderId = record.traderId → record.isBuyOrder = true →
        Trader.requiredFunds record ≤ (market.traders trader).balance →
          record.Fresh ∧ ∀ other ∈ market.engine.book.buyOrders.orders,
            (market.engine.orders other).key ≠ record.key
  | .cancel orderId isBuyOrder =>
      isBuyOrder = true → ∀ order ∈ Engine.searchById market.engine.orders orderId isBuyOrder
        (market.engine.book.side isBuyOrder).root, ¬ (market.engine.orders order).Live
  | .matchOrders =>
      ∀ pair ∈ market.engine.matchingPair,
        (market.engine.orders pair.1).price = (market.engine.orders pair.2).price

instance (market : Market α ι κ) : ∀ op, Decidable (market.Balanced op)
  | .place _ _ => inferInstanceAs (Decidable (_ → _ → _ → _ ∧ _))
  | .cancel _ _ => inferInstanceAs (Decidable (_ → _))
  | .matchOrders => inferInstanceAs (Decidable (∀ pair ∈ _, _))

/-- The trees are ordered, and every order has positive terms. -/
structure Sound (market : Market α ι κ) : Prop where
  ordered : market.engine.Ordered
  tradable : ∀ order, (market.engine.orders order).Tradable

variable {market : Market α ι κ}

omit [IsStrictOrderedRing α] [DecidableEq κ] [DecidableEq ι] in
theorem Sound.congr {after : Market α ι κ} (hsound : market.Sound)
    (hordered : after.engine.Ordered)
    (hterms : SameTerms market.engine.orders after.engine.orders) : after.Sound :=
  ⟨hordered, fun order => (hsound.tradable order).congr (hterms order)⟩

theorem Sound.perform (hsound : market.Sound) (owner : ι → κ) (op : MarketOp ι κ) :
    (market.perform owner op).Sound := by
  have hordered := hsound.ordered
  cases op with
  | place trader order =>
      have hadd : SameTerms market.engine.orders (market.engine.addOrder order).2.orders :=
        Engine.perform_sameTerms hordered.aligned (.add order)
      rcases (market.traders trader).placeOrder_cases market.engine order with
        ⟨hresult, _⟩ | ⟨_, _, hresult⟩ | ⟨_, _, _, _, hresult⟩
      · refine hsound.congr ?_ ?_
        · rw [Market.perform, hresult]
          exact hordered
        · rw [Market.perform, hresult]
          exact SameTerms.refl _
      · refine hsound.congr ?_ ?_
        · rw [Market.perform, hresult]
          exact hordered.perform (.add order)
        · rw [Market.perform, hresult]
          exact hadd
      · refine hsound.congr ?_ ?_
        · rw [Market.perform, hresult]
          exact hordered.perform (.add order)
        · rw [Market.perform, hresult]
          exact hadd
  | cancel orderId isBuyOrder =>
      exact hsound.congr (hordered.perform (.cancel orderId isBuyOrder))
        (Engine.perform_sameTerms hordered.aligned (.cancel orderId isBuyOrder))
  | matchOrders =>
      exact hsound.congr (hordered.perform .matchOrders)
        (Engine.perform_sameTerms hordered.aligned .matchOrders)

variable [Fintype κ]

omit [IsStrictOrderedRing α] [DecidableEq ι] in
/-- The funds over traders of whom one has changed. -/
theorem funds_update (engine : Engine α ι) (traders : κ → Trader α) (changed : κ)
    (trader : Trader α) :
    funds { engine := engine, traders := Function.update traders changed trader } =
      ∑ other, (traders other).balance - (traders changed).balance + trader.balance +
        engine.reserved := by
  rw [funds, sum_balance_update]

/-- Placing an order keeps the funds exactly when an order that is paid for is fresh and
its key is free. -/
theorem Sound.funds_place_iff (hsound : market.Sound) (owner : ι → κ) (trader : κ) (order : ι) :
    (market.perform owner (.place trader order)).funds = market.funds ↔
      market.Balanced (.place trader order) := by
  have htradable := hsound.tradable order
  rcases (market.traders trader).placeOrder_cases market.engine order with
    ⟨hresult, hrefused⟩ | ⟨_, hsell, hresult⟩ | ⟨hid, hbuy, hfunds, hbalance, hengine⟩
  · refine iff_of_true ?_ fun hid hbuy hfunds => absurd ⟨hid, fun _ => hfunds⟩ hrefused
    rw [Market.perform, hresult, Function.update_eq_self]
  · refine iff_of_true ?_ fun _ hbuy => absurd hbuy (by simp [hsell])
    rw [Market.perform, hresult]
    dsimp only
    rw [Function.update_eq_self, funds, Engine.addOrder_eq, hsell]
    rfl
  · have hfree : (market.engine.addOrder order).2.reserved =
        if ∀ other ∈ market.engine.book.buyOrders.orders,
          (market.engine.orders other).key ≠ (market.engine.orders order).key
        then market.engine.reserved + (market.engine.orders order).reserve
        else market.engine.reserved := hsound.ordered.reserved_addOrder hbuy
    have hcost : Trader.requiredFunds (market.engine.orders order) =
        (market.engine.orders order).price * (market.engine.orders order).quantity := rfl
    have hcostPos : 0 < Trader.requiredFunds (market.engine.orders order) :=
      mul_pos htradable.price_pos (Int.cast_pos.mpr htradable.quantity_pos)
    have hbalanced : market.Balanced (.place trader order) ↔
        (market.engine.orders order).Fresh ∧ ∀ other ∈ market.engine.book.buyOrders.orders,
          (market.engine.orders other).key ≠ (market.engine.orders order).key :=
      ⟨fun hall => hall hid hbuy hfunds, fun hall _ _ _ => hall⟩
    rw [hbalanced, Market.perform, funds_update, hbalance, hengine, hfree, funds]
    split_ifs with hkey
    · have hreserve := (market.engine.orders order).reserve_eq_iff_fresh htradable
      rw [← hcost] at hreserve
      rw [and_iff_left hkey, ← hreserve]
      constructor
      · intro hsame
        linarith
      · intro hsame
        linarith
    · refine iff_of_false (fun hsame => ?_) fun hall => hkey hall.2
      linarith

/-- Cancelling keeps the funds exactly when no live buy order is found. -/
theorem Sound.funds_cancel_iff (hsound : market.Sound) (owner : ι → κ) (orderId : CString)
    (isBuyOrder : Bool) :
    (market.perform owner (.cancel orderId isBuyOrder)).funds = market.funds ↔
      market.Balanced (.cancel orderId isBuyOrder) := by
  have hfunds : (market.perform owner (.cancel orderId isBuyOrder)).funds =
      ∑ trader, (market.traders trader).balance +
        (market.engine.cancelOrder orderId isBuyOrder).2.reserved := rfl
  rw [hfunds, funds, add_right_inj]
  rcases hsound.ordered.reserved_cancelOrder orderId isBuyOrder with
    ⟨hsame, hnone⟩ | ⟨order, hbuy, hsearch, hchange⟩
  · refine iff_of_true hsame fun hbuy order hfound => ?_
    cases (hnone hbuy).symm.trans hfound
  · have hlive : (market.engine.orders order).reserve = 0 ↔
        ¬ (market.engine.orders order).Live := by
      unfold Order.reserve
      split_ifs with hlive
      · have hpos : 0 < (market.engine.orders order).price *
            ((market.engine.orders order).remainingQuantity : α) :=
          mul_pos (hsound.tradable order).price_pos (Int.cast_pos.mpr hlive.2)
        exact iff_of_false hpos.ne' (not_not.mpr hlive)
      · exact iff_of_true rfl hlive
    have hbalanced : market.Balanced (.cancel orderId isBuyOrder) ↔
        ¬ (market.engine.orders order).Live := by
      constructor
      · exact fun hall => hall hbuy order hsearch
      · rintro hnot _ found hfound
        cases hsearch.symm.trans hfound
        exact hnot
    rw [hbalanced, ← hlive, ← hchange]
    constructor
    · intro hsame
      linarith
    · intro hsame
      linarith

/-- Matching keeps the funds exactly when the best orders match at one price. -/
theorem Sound.funds_matchOrders_iff (hsound : market.Sound) (owner : ι → κ) :
    (market.perform owner .matchOrders).funds = market.funds ↔ market.Balanced .matchOrders := by
  obtain ⟨events, hreleased⟩ := hsound.ordered.released
  have hstuck := hsound.ordered.aligned.matchOrders_stuck
  have hsettled := sum_settleAll owner market.traders hsound.tradable hreleased.fair
  have hreserved := hreleased.reserved
  have hspread := hreleased.spread_eq_zero_iff hsound.ordered hstuck
  have hsplit : (events.map market.engine.released).sum =
      (events.map fun event => event.price * (event.quantity : α)).sum +
        (events.map market.engine.spread).sum := by
    rw [← List.sum_map_add]
    apply congrArg List.sum
    apply List.map_congr_left
    intro event _
    rw [Engine.released, Engine.spread]
    ring
  have hdrop : market.engine.matchOrders.trades.drop market.engine.trades.length = events := by
    rw [hreleased.trades, List.drop_left]
  have hchange : (market.perform owner .matchOrders).funds +
      (events.map market.engine.spread).sum = market.funds := by
    rw [Market.perform, funds, funds]
    dsimp only
    rw [hdrop, hsettled, ← hreserved, hsplit]
    ring
  have hzero := hreleased.sum_spread_eq_zero_iff
  rw [Balanced, ← hspread, ← hzero]
  constructor
  · intro hsame
    linarith
  · intro hsame
    linarith

/-- A call keeps the funds exactly when it is balanced. -/
theorem Sound.funds_perform_iff (hsound : market.Sound) (owner : ι → κ) (op : MarketOp ι κ) :
    (market.perform owner op).funds = market.funds ↔ market.Balanced op := by
  cases op with
  | place trader order => exact hsound.funds_place_iff owner trader order
  | cancel orderId isBuyOrder => exact hsound.funds_cancel_iff owner orderId isBuyOrder
  | matchOrders => exact hsound.funds_matchOrders_iff owner

/-- From a fresh book, over any traders and any orders with positive terms, the balances
and the reserve add up to the same in every state of a run exactly when every call of the
run is balanced. -/
theorem run_funds_iff (owner : ι → κ) (orders : ι → Order α)
    (htradable : ∀ order, (orders order).Tradable) (traders : κ → Trader α)
    (ops : List (MarketOp ι κ)) :
    let start : Market α ι κ := { engine := Engine.init orders, traders := traders }
    (∀ count, (Transition.run (Market.perform owner) start (ops.take count)).funds =
        start.funds) ↔
      Transition.Along (Market.perform owner) Balanced start ops := by
  intro start
  have hstart : start.Sound := ⟨Engine.init_ordered orders, htradable⟩
  apply Transition.forall_states_iff_along (Market.perform owner)
    (fun market => market.Sound ∧ market.funds = start.funds)
    (fun market => market.funds = start.funds) (fun _ hinvariant => hinvariant.2)
  · rintro market op ⟨hsound, hfunds⟩ hbalanced
    exact ⟨hsound.perform owner op,
      ((hsound.funds_perform_iff owner op).mpr hbalanced).trans hfunds⟩
  · rintro market op ⟨hsound, hfunds⟩ hunbalanced hsame
    exact hunbalanced ((hsound.funds_perform_iff owner op).mp (hsame.trans hfunds.symm))
  · exact ⟨hstart, rfl⟩

/-- A buyer and a seller. -/
def twoTraders : Fin 2 → Trader ℚ
  | 0 =>
      { traderId := "B".toList
        name := "Buyer".toList
        balance := 100
        balance_nonneg := by decide +kernel }
  | 1 =>
      { traderId := "S".toList
        name := "Seller".toList
        balance := 0
        balance_nonneg := le_rfl }

/-- A bid for five shares at ten, and an offer of them at a price. -/
def bidAndOffer (price : ℚ) : Nat → Order ℚ
  | 0 => { Order.sample "O1" 10 5 true 1 with traderId := "B".toList }
  | _ => { Order.sample "O2" price 5 false 2 with traderId := "S".toList }

theorem bidAndOffer_tradable {price : ℚ} (hprice : 0 < price) (order : Nat) :
    (bidAndOffer price order).Tradable := by
  cases order with
  | zero =>
      have hten : (0 : ℚ) < 10 := by decide +kernel
      have hfive : (0 : Int) < 5 := by decide
      have hshort : "O1".toList.length < maxIdLength := by decide
      exact ⟨hten, hfive, hshort⟩
  | succ order =>
      have hfive : (0 : Int) < 5 := by decide
      have hshort : "O2".toList.length < maxIdLength := by decide
      exact ⟨hprice, hfive, hshort⟩

/-- The orders belong to the buyer and to the seller. -/
def bidOwner : Nat → Fin 2
  | 0 => 0
  | _ => 1

/-- The market before these orders are placed. -/
def bidMarket (price : ℚ) : Market ℚ Nat (Fin 2) where
  engine := Engine.init (bidAndOffer price)
  traders := twoTraders

/-- Money is conserved in a trade at one price. -/
theorem run_funds_iff_one_price :
    (bidMarket 10).funds = 100 ∧
      ∀ count, (Transition.run (Market.perform bidOwner) (bidMarket 10)
        ([.place 0 0, .place 1 1, .matchOrders].take count)).funds = (bidMarket 10).funds := by
  refine ⟨by decide +kernel, ?_⟩
  apply (run_funds_iff bidOwner (bidAndOffer 10) (bidAndOffer_tradable (by decide +kernel))
    twoTraders [.place 0 0, .place 1 1, .matchOrders]).mpr
  decide +kernel

/-- When the offer is at eight, ten are lost in the trade; and when the bid is cancelled,
the fifty that were reserved for it are lost. -/
theorem improvement_and_cancel_lose_money :
    (bidMarket 8).funds = 100 ∧
      (Transition.run (Market.perform bidOwner) (bidMarket 8)
        [.place 0 0, .place 1 1, .matchOrders]).funds = 90 ∧
      (Transition.run (Market.perform bidOwner) (bidMarket 8)
        [.place 0 0, .cancel "O1".toList true]).funds = 50 := by
  decide +kernel

end Market

end QuantTrading
