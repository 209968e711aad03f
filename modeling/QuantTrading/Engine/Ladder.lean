import QuantTrading.Engine.OrderedBook

/-! # The book as two lists

What the trees of an ordered book stand for is the list of the bids from the
highest key down and the list of the offers from the lowest key up. Matching is
a loop on the heads of these two lists, and the tree-based loop refines it. The
shape of the trees, and with it the history of the book, is gone at this level.
-/

namespace QuantTrading

/-- The bids and offers of a book in the order in which they trade, with the
orders themselves and the trades made so far. -/
structure Ladder (α ι : Type*) where
  orders : ι → Order α
  bids : List ι
  asks : List ι
  trades : List (TradeEvent α ι)

variable {α ι : Type*}

namespace Ladder

/-- A list without its head when the head is completely filled. -/
def dropFilled (orders : ι → Order α) : List ι → List ι
  | [] => []
  | order :: rest => if (orders order).remainingQuantity = 0 then rest else order :: rest

theorem dropFilled_sublist (orders : ι → Order α) (list : List ι) :
    (dropFilled orders list).Sublist list := by
  cases list with
  | nil => exact List.Sublist.refl _
  | cons head rest =>
      rw [dropFilled]
      split_ifs
      · exact List.sublist_cons_self head rest
      · exact List.Sublist.refl _

/-- The orders after `buy` and `sell` have traded what both have left. -/
def fill [DecidableEq ι] (orders : ι → Order α) (buy sell : ι) : ι → Order α := fun order =>
  if order = buy ∨ order = sell then
    { orders order with
      remainingQuantity := (orders order).remainingQuantity -
        min (orders buy).remainingQuantity (orders sell).remainingQuantity }
  else orders order

theorem fill_of_ne [DecidableEq ι] {orders : ι → Order α} {buy sell order : ι}
    (hbuy : order ≠ buy) (hsell : order ≠ sell) : fill orders buy sell order = orders order :=
  if_neg (by simp [hbuy, hsell])

/-- Trade the two heads with each other. -/
def trade [DecidableEq ι] (ladder : Ladder α ι) (buy sell : ι) : Ladder α ι where
  orders := fill ladder.orders buy sell
  bids := dropFilled (fill ladder.orders buy sell) ladder.bids
  asks := dropFilled (fill ladder.orders buy sell) ladder.asks
  trades := ladder.trades ++
    [{ buyOrder := buy
       sellOrder := sell
       symbol := (ladder.orders buy).symbol
       buyOrderId := (ladder.orders buy).orderId
       sellOrderId := (ladder.orders sell).orderId
       price := (ladder.orders sell).price
       quantity := min (ladder.orders buy).remainingQuantity
        (ladder.orders sell).remainingQuantity }]

variable [LT α] [DecidableLT α]

/-- The two heads, when they match. -/
def matchingPair (ladder : Ladder α ι) : Option (ι × ι) :=
  match ladder.bids.head?, ladder.asks.head? with
  | some buy, some sell =>
      if isMatchPossible (ladder.orders buy) (ladder.orders sell) then some (buy, sell) else none
  | _, _ => none

variable [DecidableEq ι]

/-- One match, if the heads match. -/
def matchOnce (ladder : Ladder α ι) : Option (Ladder α ι) :=
  ladder.matchingPair.map fun pair => ladder.trade pair.1 pair.2

/-- Match the heads until they do not match. -/
def matchOrders (ladder : Ladder α ι) : Ladder α ι :=
  Transition.loop matchOnce (ladder.bids.length + ladder.asks.length) ladder

end Ladder

namespace Engine

/-- The two lists an engine stands for. -/
def ladder (state : Engine α ι) : Ladder α ι where
  orders := state.orders
  bids := state.book.buyOrders.orders.reverse
  asks := state.book.sellOrders.orders
  trades := state.trades

/-- The first bid is the order with the largest key. -/
theorem head_bids (state : Engine α ι) :
    state.ladder.bids.head? = state.book.buyOrders.findMax := by
  rw [AVLTree.findMax_eq]
  exact List.head?_reverse

/-- The first offer is the order with the smallest key. -/
theorem head_asks (state : Engine α ι) :
    state.ladder.asks.head? = state.book.sellOrders.findMin :=
  state.book.sellOrders.findMin_eq.symm

theorem ladder_matchingPair [LT α] [DecidableLT α] (state : Engine α ι) :
    state.ladder.matchingPair = state.matchingPair := by
  rw [matchingPair, ← head_bids, ← head_asks]
  rfl

theorem ladder_length (state : Engine α ι) :
    state.ladder.bids.length + state.ladder.asks.length = state.matchFuel := by
  simp [ladder, AVLTree.orders, AVLTree.entries, HeightTree.length_toList, matchFuel]

variable [LinearOrder α] [DecidableEq ι]

omit [LinearOrder α] in
/-- A list without duplicates ends where its last element is filtered out. -/
theorem reverse_filter_ne {list : List ι} {last : ι} (hnodup : list.Nodup)
    (hlast : list.getLast? = some last) :
    (list.filter fun order => order ≠ last).reverse = list.reverse.tail := by
  obtain ⟨front, rfl⟩ := List.getLast?_eq_some_iff.mp hlast
  have hfront : ∀ order ∈ front, order ≠ last := by
    intro order horder heq
    exact (List.nodup_append.mp hnodup).2.2 order horder last (by simp) heq
  rw [List.filter_append, List.filter_eq_self.mpr fun order horder => by
    simpa using hfront order horder]
  simp

omit [LinearOrder α] in
theorem filter_ne_head {list : List ι} {head : ι} (hnodup : list.Nodup)
    (hhead : list.head? = some head) : (list.filter fun order => order ≠ head) = list.tail := by
  obtain ⟨rest, rfl⟩ := List.head?_eq_some_iff.mp hhead
  have hrest : ∀ order ∈ rest, order ≠ head := by
    rintro order horder rfl
    exact (List.nodup_cons.mp hnodup).1 horder
  rw [List.filter_cons_of_neg (by simp), List.tail_cons]
  exact List.filter_eq_self.mpr fun order horder => by simpa using hrest order horder

theorem Traded.orders_eq_fill {state state' : Engine α ι} {buy sell : ι}
    (htraded : Traded state state' buy sell) :
    state'.orders = Ladder.fill state.orders buy sell := by
  have hmin := state.matchQuantity_eq_min buy sell
  funext order
  unfold Ladder.fill
  by_cases hbuy : order = buy
  · rw [if_pos (Or.inl hbuy), hbuy, htraded.buyAfter, hmin]
  · by_cases hsell : order = sell
    · rw [if_pos (Or.inr hsell), hsell, htraded.sellAfter, hmin]
    · rw [if_neg (by simp [hbuy, hsell]), htraded.others order hbuy hsell]

omit [LinearOrder α] [DecidableEq ι] in
theorem Traded.bids_cons [LT α] [DecidableLT α] [BEq α] {state state' : Engine α ι} {buy sell : ι}
    (htraded : Traded state state' buy sell) : ∃ rest, state.ladder.bids = buy :: rest :=
  List.head?_eq_some_iff.mp (state.head_bids.trans htraded.bestBuy)

omit [LinearOrder α] [DecidableEq ι] in
theorem Traded.asks_cons [LT α] [DecidableLT α] [BEq α] {state state' : Engine α ι} {buy sell : ι}
    (htraded : Traded state state' buy sell) : ∃ rest, state.ladder.asks = sell :: rest :=
  List.head?_eq_some_iff.mp (state.head_asks.trans htraded.bestSell)

theorem Traded.bids_eq {state state' : Engine α ι} {buy sell : ι}
    (htraded : Traded state state' buy sell) (hordered : state.Ordered) :
    state'.book.buyOrders.orders.reverse =
      Ladder.dropFilled state'.orders state.book.buyOrders.orders.reverse := by
  have hlast : state.book.buyOrders.orders.getLast? = some buy :=
    AVLTree.findMax_eq _ ▸ htraded.bestBuy
  have hnodup := hordered.buySorted.nodup_orders hordered.aligned.buy
  obtain ⟨rest, hrest⟩ := List.head?_eq_some_iff.mp ((List.head?_reverse).trans hlast)
  rw [htraded.buyTree, hrest, Ladder.dropFilled]
  split_ifs
  · rw [hordered.buySorted.deleteOrder_orders_eq hordered.aligned.buy htraded.buy_mem,
      reverse_filter_ne hnodup hlast, hrest, List.tail_cons]
  · exact hrest

theorem Traded.asks_eq {state state' : Engine α ι} {buy sell : ι}
    (htraded : Traded state state' buy sell) (hordered : state.Ordered) :
    state'.book.sellOrders.orders =
      Ladder.dropFilled state'.orders state.book.sellOrders.orders := by
  have hhead : state.book.sellOrders.orders.head? = some sell :=
    AVLTree.findMin_eq _ ▸ htraded.bestSell
  have hnodup := hordered.sellSorted.nodup_orders hordered.aligned.sell
  obtain ⟨rest, hrest⟩ := List.head?_eq_some_iff.mp hhead
  rw [htraded.sellTree, hrest, Ladder.dropFilled]
  split_ifs
  · rw [hordered.sellSorted.deleteOrder_orders_eq hordered.aligned.sell htraded.sell_mem,
      filter_ne_head hnodup hhead, hrest, List.tail_cons]
  · exact hrest

/-- A match on the trees is a match on the lists. -/
theorem Traded.ladder_eq {state state' : Engine α ι} {buy sell : ι}
    (htraded : Traded state state' buy sell) (hordered : state.Ordered) :
    state'.ladder = state.ladder.trade buy sell := by
  have horders := htraded.orders_eq_fill
  have hbids := htraded.bids_eq hordered
  have hasks := htraded.asks_eq hordered
  rw [horders] at hbids hasks
  simp only [ladder, Ladder.trade, horders, hbids, hasks, htraded.trades, matchQuantity_eq_min]

/-- An iteration of the matching loop refines one on the lists. -/
theorem Ordered.ladder_matchOnce {state : Engine α ι} (hordered : state.Ordered) :
    state.ladder.matchOnce = state.matchOnce.map ladder := by
  rw [Ladder.matchOnce, ladder_matchingPair]
  cases hpair : state.matchingPair with
  | none => rw [matchOnce_eq_none_iff.mpr hpair, Option.map_none, Option.map_none]
  | some pair =>
      obtain ⟨buy, sell⟩ := pair
      have hnext := matchOnce_eq_some_iff.mpr ⟨buy, sell, hpair, rfl⟩
      obtain ⟨buy', sell', htraded⟩ := hordered.aligned.traded hnext
      obtain ⟨rfl, rfl⟩ : buy = buy' ∧ sell = sell' := by
        simpa using hpair.symm.trans htraded.matchingPair_eq
      rw [hnext, Option.map_some, Option.map_some, htraded.ladder_eq hordered]

/-- `order_book_match_orders` refines the matching of the two lists. -/
theorem Ordered.ladder_matchOrders {state : Engine α ι} (hordered : state.Ordered) :
    state.matchOrders.ladder = state.ladder.matchOrders := by
  rw [matchOrders_eq_loop, Ladder.matchOrders, ladder_length]
  exact Transition.loop_abstract Ordered ladder
    (fun _ _ h hnext => Ordered.matchOnce h hnext) (fun _ h => Ordered.ladder_matchOnce h) _
    hordered

end Engine

end QuantTrading
