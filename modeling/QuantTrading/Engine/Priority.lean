import QuantTrading.Engine.OrderedBook

/-! # Price-time priority

Two orderings meet in the matching loop. `order_compare` says which of two orders
has priority; `compare_nodes` arranges the trees, whose ends the loop trades.
They agree on sell orders. On buy orders the largest key is the latest of the
orders at the best price, so they agree only when that order is alone there.
-/

namespace QuantTrading

variable {α ι : Type*} [LinearOrder α]

namespace Order

theorem compare_nonpos_iff_of_buy {first second : Order α} (hbuy : first.isBuyOrder = true) :
    first.compare second ≤ 0 ↔ second.price < first.price ∨
      second.price = first.price ∧ first.timestamp ≤ second.timestamp := by
  unfold compare
  rcases lt_trichotomy first.price second.price with hlt | heq | hgt
  · simp [hbuy, hlt.ne, hlt.ne', hlt.asymm]
  · simp only [heq, bne_self_eq_false, Bool.false_eq_true, if_false, lt_irrefl, false_or, true_and]
    split_ifs <;> omega
  · simp [hbuy, hgt, hgt.ne']

theorem compare_nonpos_iff_of_sell {first second : Order α} (hsell : first.isBuyOrder = false) :
    first.compare second ≤ 0 ↔ first.price < second.price ∨
      first.price = second.price ∧ first.timestamp ≤ second.timestamp := by
  unfold compare
  rcases lt_trichotomy first.price second.price with hlt | heq | hgt
  · simp [hsell, hlt, hlt.ne]
  · simp only [heq, bne_self_eq_false, Bool.false_eq_true, if_false, lt_irrefl, false_or, true_and]
    split_ifs <;> omega
  · simp [hsell, hgt.ne', hgt.asymm]

end Order

namespace AVLTree

variable (orders : ι → Order α) (tree : AVLTree α ι)

/-- `order_compare` ranks no order of the tree before the given one. -/
def RanksFirst (order : ι) : Prop :=
  ∀ other ∈ tree.orders, (orders order).compare (orders other) ≤ 0

instance (order : ι) : Decidable (tree.RanksFirst orders order) :=
  inferInstanceAs (Decidable (∀ _ ∈ _, _))

/-- At most one order of the tree has the highest price. -/
def SingleHighest : Prop :=
  ∀ first ∈ tree.orders, ∀ second ∈ tree.orders,
    (∀ other ∈ tree.orders, (orders other).price ≤ (orders first).price) →
    (orders second).price = (orders first).price → second = first

variable {orders tree}

/-- The smallest key of a sell tree belongs to the order ranked first. -/
theorem Sorted.ranksFirst_of_findMin (hsorted : tree.Sorted) (haligned : tree.Aligned orders false)
    {sell : ι} (hmin : tree.findMin = some sell) : tree.RanksFirst orders sell := by
  intro other hother
  have hside := haligned.side_of_mem (mem_orders_of_findMin hmin)
  have hkey := (hsorted.ascending_orders haligned).head_le (tree.findMin_eq ▸ hmin) other hother
  exact (Order.compare_nonpos_iff_of_sell hside).mpr (Order.key_le_iff.mp hkey)

/-- The largest key of a buy tree belongs to the order ranked first exactly when
no other order shares the highest price. -/
theorem Sorted.ranksFirst_of_findMax_iff (hsorted : tree.Sorted)
    (haligned : tree.Aligned orders true) {buy : ι} (hmax : tree.findMax = some buy) :
    tree.RanksFirst orders buy ↔ tree.SingleHighest orders := by
  have hbuy := mem_orders_of_findMax hmax
  have hside := haligned.side_of_mem hbuy
  have hasc := hsorted.ascending_orders haligned
  have hlast := hasc.le_last (tree.findMax_eq ▸ hmax)
  have hhighest := hsorted.price_le_of_findMax haligned hmax
  constructor
  · intro hfirst
    -- an order at the best price is neither earlier nor later than `buy`
    have halone : ∀ other ∈ tree.orders, (orders other).price = (orders buy).price →
        other = buy := by
      intro other hother hprice
      have hle := Order.key_le_iff.mp (hlast other hother)
      have hcompare := (Order.compare_nonpos_iff_of_buy hside).mp (hfirst other hother)
      have htimestamp : (orders other).timestamp = (orders buy).timestamp := by
        simp only [hprice, lt_irrefl, false_or, true_and] at hle hcompare
        omega
      apply hasc.eq_of_key_eq hother hbuy
      simp only [Order.key, hprice, htimestamp]
    intro first hstored second hother htop hprice
    have hfirstPrice := le_antisymm (hhighest first hstored) (htop buy hbuy)
    rw [halone first hstored hfirstPrice, halone second hother (hprice.trans hfirstPrice)]
  · intro hsingle other hother
    rw [Order.compare_nonpos_iff_of_buy hside]
    rcases (hhighest other hother).lt_or_eq with hlt | heq
    · exact Or.inl hlt
    · rw [hsingle buy hbuy other hother hhighest heq]
      exact Or.inr ⟨rfl, le_rfl⟩

end AVLTree

namespace Engine

variable [DecidableEq ι]

/-- Priority in every reachable book, and for every trade a call of
`order_book_match_orders` emits there: the sell order is always the one ranked
first, and the buy order is exactly when no other buy order shares the highest
price. -/
theorem run_priority_iff (orders : ι → Order α) (ops : List (BookOp ι)) :
    let state := Transition.run Engine.perform (init orders) ops
    let buys := fun current : Engine α ι => current.book.buyOrders
    let sells := fun current : Engine α ι => current.book.sellOrders
    (∀ sell, (sells state).findMin = some sell → (sells state).RanksFirst state.orders sell) ∧
    (∀ buy, (buys state).findMax = some buy →
      ((buys state).RanksFirst state.orders buy ↔ (buys state).SingleHighest state.orders)) ∧
    ∃ events, state.matchOrders.trades = state.trades ++ events ∧
      List.Forall₂ (fun visited event =>
        (sells visited).RanksFirst visited.orders event.sellOrder ∧
        ((buys visited).RanksFirst visited.orders event.buyOrder ↔
          (buys visited).SingleHighest visited.orders)) state.matchStates events := by
  intro state buys sells
  have hordered : state.Ordered := run_ordered orders ops
  refine ⟨fun sell hmin => hordered.sellSorted.ranksFirst_of_findMin hordered.aligned.sell hmin,
    fun buy hmax => hordered.buySorted.ranksFirst_of_findMax_iff hordered.aligned.buy hmax, ?_⟩
  refine matchOrders_trades Ordered ?_ hordered
  intro visited next hvisited hnext
  obtain ⟨buy, sell, htraded⟩ := hvisited.aligned.traded hnext
  refine ⟨htraded.ordered hvisited, _, htraded.trades, ?_, ?_⟩
  · exact hvisited.sellSorted.ranksFirst_of_findMin hvisited.aligned.sell htraded.bestSell
  · exact hvisited.buySorted.ranksFirst_of_findMax_iff hvisited.aligned.buy htraded.bestBuy

/-- Two bids at one price, placed one after the other, and an offer. -/
def queuedBids : Nat → Order Int
  | 0 => Order.sample "A" 10 5 true 1
  | 1 => Order.sample "B" 10 5 true 2
  | _ => Order.sample "S" 10 5 false 3

/-- The later of the two bids trades first. -/
theorem later_bid_trades_first :
    let state := Transition.run Engine.perform (init queuedBids) [.add 0, .add 1, .add 2]
    state.matchOrders.trades.map TradeEvent.buyOrder = [1] ∧
      ¬ state.book.buyOrders.RanksFirst state.orders 1 ∧
      state.book.buyOrders.RanksFirst state.orders 0 := by
  decide

end Engine

end QuantTrading
