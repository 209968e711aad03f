import QuantTrading.Engine.Ladder
import QuantTrading.Engine.Representation

/-! # How long matching runs

Every match takes a filled order out of its tree, so a call of
`order_book_match_orders` makes fewer trades than there are stored orders. It ends
at a fixed point: the next call finds the same pair of tops and changes nothing.
-/

namespace QuantTrading

variable {α ι : Type*}

namespace Engine

section Fixpoint

variable [LT α] [DecidableLT α] [BEq α] [DecidableEq ι]

theorem matchOrders_of_stuck {state : Engine α ι} (hstuck : state.matchingPair = none) :
    state.matchOrders = state := by
  rw [matchOrders_eq_loop]
  exact Transition.loop_of_none (matchOnce_eq_none_iff.mpr hstuck) _

/-- Matching twice is matching once. -/
theorem Aligned.matchOrders_matchOrders {state : Engine α ι} (haligned : state.Aligned) :
    state.matchOrders.matchOrders = state.matchOrders :=
  matchOrders_of_stuck haligned.matchOrders_stuck

omit [BEq α] [DecidableEq ι] in
theorem matchingPair_of_empty {state : Engine α ι}
    (hempty : state.book.buyOrders.orders = [] ∨ state.book.sellOrders.orders = []) :
    state.matchingPair = none := by
  unfold matchingPair
  rw [AVLTree.findMax_eq, AVLTree.findMin_eq]
  rcases hempty with hbuy | hsell
  · rw [hbuy]
    rfl
  · rw [hsell]
    cases state.book.buyOrders.orders.getLast? <;> rfl

end Fixpoint

variable [LinearOrder α] [DecidableEq ι]

/-- An order is in a tree before a match and not after it. -/
def Leaves (state state' : Engine α ι) (order : ι) : Prop :=
  ∃ isBuyOrder, order ∈ (state.book.side isBuyOrder).orders ∧
    order ∉ (state'.book.side isBuyOrder).orders

/-- A match takes one of its two orders out of its tree. -/
theorem Traded.leaves {state state' : Engine α ι} {buy sell : ι}
    (htraded : Traded state state' buy sell) (hordered : state.Ordered) :
    Leaves state state' buy ∨ Leaves state state' sell := by
  have hgone : ∀ order isBuyOrder, order = buy ∨ order = sell →
      (state'.orders order).remainingQuantity = 0 →
        order ∉ (state'.book.side isBuyOrder).orders := by
    intro order isBuyOrder hside hfilled hmem
    exact htraded.remaining_ne_zero hordered (mem_storedOrders_iff_side.mpr ⟨isBuyOrder, hmem⟩)
      hside hfilled
  rcases htraded.filled with hbuy | hsell
  · exact Or.inl ⟨true, htraded.buy_mem, hgone buy true (Or.inl rfl) hbuy⟩
  · exact Or.inr ⟨false, htraded.sell_mem, hgone sell false (Or.inr rfl) hsell⟩

/-- A match leaves fewer stored orders, of at least two. -/
theorem Traded.length_storedOrders_lt {state state' : Engine α ι} {buy sell : ι}
    (htraded : Traded state state' buy sell) (hordered : state.Ordered) :
    state'.storedOrders.length < state.storedOrders.length ∧ 2 ≤ state.storedOrders.length := by
  obtain ⟨bids, hbids⟩ := htraded.bids_cons
  obtain ⟨asks, hasks⟩ := htraded.asks_cons
  have hbuys := congrArg List.length (htraded.bids_eq hordered)
  have hsells := congrArg List.length (htraded.asks_eq hordered)
  have hbidsLe := (Ladder.dropFilled_sublist state'.orders state.ladder.bids).length_le
  have hasksLe := (Ladder.dropFilled_sublist state'.orders state.ladder.asks).length_le
  have hbidsLength : state.book.buyOrders.orders.length = bids.length + 1 := by
    rw [← List.length_reverse]
    exact congrArg List.length hbids
  have hasksLength : state.book.sellOrders.orders.length = asks.length + 1 :=
    congrArg List.length hasks
  change _ = (Ladder.dropFilled state'.orders state.ladder.bids).length at hbuys
  change _ = (Ladder.dropFilled state'.orders state.ladder.asks).length at hsells
  rw [List.length_reverse] at hbuys
  rw [hbids] at hbuys hbidsLe
  rw [hasks] at hsells hasksLe
  simp only [storedOrders, List.length_append, List.length_cons] at hbidsLe hasksLe ⊢
  rcases htraded.filled with hbuy | hsell
  · rw [Ladder.dropFilled, if_pos hbuy] at hbuys
    omega
  · rw [Ladder.dropFilled, if_pos hsell] at hsells
    omega

/-- The match made in a state emits a trade and takes one of the orders it names out of
its tree. -/
def TakesOut (state : Engine α ι) (event : TradeEvent α ι) : Prop :=
  ∃ next, state.matchOnce = some next ∧ next.trades = state.trades ++ [event] ∧
    (Leaves state next event.buyOrder ∨ Leaves state next event.sellOrder)

/-- How the stored orders bound the trades of a call that began in `start`. -/
structure Bounded (start state : Engine α ι) : Prop where
  ordered : state.Ordered
  trades : ∃ events, state.trades = start.trades ++ events ∧
    events.length + state.storedOrders.length ≤ start.storedOrders.length ∧
    (events = [] ∨ events.length < start.storedOrders.length)

theorem Bounded.matchOnce {start state state' : Engine α ι} (hbounded : Bounded start state)
    (hnext : state.matchOnce = some state') : Bounded start state' := by
  obtain ⟨buy, sell, htraded⟩ := hbounded.ordered.aligned.traded hnext
  obtain ⟨events, hevents, hstored, _⟩ := hbounded.trades
  obtain ⟨hlt, htwo⟩ := htraded.length_storedOrders_lt hbounded.ordered
  refine ⟨htraded.ordered hbounded.ordered, ?_⟩
  rw [htraded.trades, hevents, List.append_assoc]
  refine ⟨_, rfl, ?_, Or.inr ?_⟩
  · rw [List.length_append, List.length_singleton]
    omega
  · rw [List.length_append, List.length_singleton]
    omega

theorem Ordered.bounded_matchOrders {state : Engine α ι} (hordered : state.Ordered) :
    Bounded state state.matchOrders := by
  apply matchOrders_invariant (Bounded state)
  · exact fun _ _ h hnext => h.matchOnce hnext
  · exact ⟨hordered, [], (List.append_nil _).symm, by simp, Or.inl rfl⟩

/-- From any reachable book, `order_book_match_orders` ends after fewer trades than
there are orders, and after none when a side is empty, since every trade takes one
of its orders out of its tree; the next call emits nothing and changes nothing. -/
theorem run_matchOrders_bound (orders : ι → Order α) (ops : List (BookOp ι)) :
    let before := Transition.run Engine.perform (init orders) ops
    let after := before.matchOrders
    let buys := before.book.buyOrders.orders.length
    let sells := before.book.sellOrders.orders.length
    (∃ events, after.trades = before.trades ++ events ∧
      events.length ≤ (if 1 ≤ buys ∧ 1 ≤ sells then buys + sells - 1 else 0) ∧
      List.Forall₂ TakesOut before.matchStates events) ∧
    after.matchingPair = none ∧ after.matchOrders = after := by
  intro before after buys sells
  have hordered : before.Ordered := run_ordered orders ops
  refine ⟨?_, hordered.aligned.matchOrders_stuck, hordered.aligned.matchOrders_matchOrders⟩
  have hstep : ∀ state next : Engine α ι, state.Ordered → state.matchOnce = some next →
      next.Ordered ∧ ∃ event, next.trades = state.trades ++ [event] ∧ TakesOut state event := by
    intro state next hcurrent hnext
    obtain ⟨buy, sell, htraded⟩ := hcurrent.aligned.traded hnext
    exact ⟨htraded.ordered hcurrent, _, htraded.trades, next, hnext, htraded.trades,
      htraded.leaves hcurrent⟩
  obtain ⟨events, hevents, htakesOut⟩ := matchOrders_trades Ordered hstep hordered
  refine ⟨events, hevents, ?_, htakesOut⟩
  split_ifs with hsides
  · obtain ⟨events', hevents', hstored, hfewer⟩ := hordered.bounded_matchOrders.trades
    obtain rfl : events = events' := List.append_cancel_left (hevents.symm.trans hevents')
    have hlength : before.storedOrders.length = buys + sells := List.length_append
    rcases hfewer with rfl | hfewer
    · exact Nat.zero_le _
    · omega
  · have hempty : before.book.buyOrders.orders = [] ∨ before.book.sellOrders.orders = [] := by
      rw [← List.length_eq_zero_iff, ← List.length_eq_zero_iff]
      omega
    have hsame : after = before := matchOrders_of_stuck (matchingPair_of_empty hempty)
    have hnone : before.trades ++ events = before.trades ++ [] := by
      rw [← hevents, List.append_nil]
      exact congrArg Engine.trades hsame
    rw [List.append_cancel_left hnone]
    exact Nat.le_refl 0

end Engine

end QuantTrading
