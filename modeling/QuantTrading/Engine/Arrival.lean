import QuantTrading.Engine.Cancellation
import QuantTrading.Engine.Ladder
import QuantTrading.Engine.Ledger
import QuantTrading.Engine.Representation

/-! # An order arriving at a settled book

A book is settled when its orders are of one symbol and its best pair does not
match. When an order is added to such a book and the book is matched, every trade
names the new order: as long as the other orders are looked at without it, their
best pair does not match, because the orders it removes from the other side leave
worse prices behind.
-/

namespace QuantTrading

variable {α ι : Type*} [LinearOrder α]

namespace Engine

/-- An ordered book of one symbol whose best pair does not match. -/
structure Settled (symbol : CString) (state : Engine α ι) : Prop where
  ordered : state.Ordered
  symbols : ∀ order ∈ state.storedOrders, (state.orders order).symbol = symbol
  quiet : state.matchingPair = none

/-- Being settled depends on the book and on the orders stored in it. -/
theorem Settled.congr {symbol : CString} {state state' : Engine α ι}
    (hsettled : Settled symbol state) (hbook : state'.book = state.book)
    (hsame : ∀ order ∈ state.storedOrders, state'.orders order = state.orders order) :
    Settled symbol state' := by
  have haligned := hsettled.ordered.aligned
  have hbuy : ∀ order ∈ state.book.buyOrders.orders, state'.orders order = state.orders order :=
    fun order horder => hsame order (mem_storedOrders.mpr (Or.inl horder))
  have hsell : ∀ order ∈ state.book.sellOrders.orders, state'.orders order = state.orders order :=
    fun order horder => hsame order (mem_storedOrders.mpr (Or.inr horder))
  have hstored : state'.storedOrders = state.storedOrders := by
    rw [storedOrders, hbook, storedOrders]
  refine ⟨⟨⟨?_, ?_⟩, hbook ▸ hsettled.ordered.buySorted, hbook ▸ hsettled.ordered.sellSorted⟩,
    ?_, ?_⟩
  · rw [hbook]
    exact haligned.buy.congr hbuy
  · rw [hbook]
    exact haligned.sell.congr hsell
  · intro order horder
    rw [hstored] at horder
    rw [hsame order horder]
    exact hsettled.symbols order horder
  · apply Option.eq_none_iff_forall_ne_some.mpr
    rintro ⟨buy, sell⟩ hpair
    obtain ⟨hmax, hmin, hmatch⟩ := matchingPair_eq_some_iff.mp hpair
    rw [hbook] at hmax hmin
    rw [hbuy buy (AVLTree.mem_orders_of_findMax hmax),
      hsell sell (AVLTree.mem_orders_of_findMin hmin)] at hmatch
    have hpair' := matchingPair_eq_some_iff.mpr ⟨hmax, hmin, hmatch⟩
    rw [hsettled.quiet] at hpair'
    exact absurd hpair' (by simp)

variable [DecidableEq ι]

/-- The best bid and the best offer, leaving out the order `fresh`, do not match. -/
def QuietWithout (fresh : ι) (state : Engine α ι) : Prop :=
  ∀ buy ∈ (state.ladder.bids.filter fun order => order ≠ fresh).head?,
    ∀ sell ∈ (state.ladder.asks.filter fun order => order ≠ fresh).head?,
      isMatchPossible (state.orders buy) (state.orders sell) = false

/-- A book of one symbol into which `fresh` has arrived. -/
structure Receiving (symbol : CString) (fresh : ι) (state : Engine α ι) : Prop where
  ordered : state.Ordered
  symbols : ∀ order ∈ state.storedOrders, (state.orders order).symbol = symbol
  quiet : QuietWithout fresh state

omit [LinearOrder α] in
/-- Dropping a filled head that is left out anyway changes nothing. -/
theorem filter_dropFilled_self (orders : ι → Order α) (fresh : ι) (rest : List ι) :
    ((Ladder.dropFilled orders (fresh :: rest)).filter fun order => order ≠ fresh) =
      (fresh :: rest).filter fun order => order ≠ fresh := by
  rw [Ladder.dropFilled, List.filter_cons_of_neg (by simp)]
  split_ifs
  · rfl
  · rw [List.filter_cons_of_neg (by simp)]

omit [LinearOrder α] [DecidableEq ι] in
theorem mem_storedOrders_of_bids {state : Engine α ι} {order : ι}
    (horder : order ∈ state.ladder.bids) : order ∈ state.storedOrders :=
  mem_storedOrders.mpr (Or.inl (List.mem_reverse.mp horder))

/-- Leaving out the order that arrived, the best pair does not cross while it is
live. -/
theorem Receiving.lt_of_live {symbol : CString} {fresh : ι} {state : Engine α ι}
    (hreceiving : Receiving symbol fresh state) {buy sell : ι}
    (hbuy : buy ∈ (state.ladder.bids.filter fun order => order ≠ fresh).head?)
    (hsell : sell ∈ (state.ladder.asks.filter fun order => order ≠ fresh).head?)
    (hbuyLive : (state.orders buy).Live) (hsellLive : (state.orders sell).Live) :
    (state.orders buy).price < (state.orders sell).price := by
  have hbuySymbol := hreceiving.symbols buy
    (mem_storedOrders_of_bids (List.mem_of_mem_filter (List.mem_of_mem_head? hbuy)))
  have hsellSymbol := hreceiving.symbols sell
    (mem_storedOrders.mpr (Or.inr (List.mem_of_mem_filter (List.mem_of_mem_head? hsell))))
  by_contra hcross
  have hmatch := isMatchPossible_iff.mpr
    ⟨hbuyLive, hsellLive, hbuySymbol.trans hsellSymbol.symm, hcross⟩
  rw [hreceiving.quiet buy hbuy sell hsell] at hmatch
  exact Bool.noConfusion hmatch

theorem Traded.head_bids {state state' : Engine α ι} {fresh buy sell : ι}
    (htraded : Traded state state' buy sell) (hne : buy ≠ fresh) :
    buy ∈ (state.ladder.bids.filter fun order => order ≠ fresh).head? := by
  obtain ⟨bids, hbids⟩ := htraded.bids_cons
  rw [hbids, List.filter_cons_of_pos (by simpa)]
  rfl

theorem Traded.head_asks {state state' : Engine α ι} {fresh buy sell : ι}
    (htraded : Traded state state' buy sell) (hne : sell ≠ fresh) :
    sell ∈ (state.ladder.asks.filter fun order => order ≠ fresh).head? := by
  obtain ⟨asks, hasks⟩ := htraded.asks_cons
  rw [hasks, List.filter_cons_of_pos (by simpa)]
  rfl

/-- A match in a receiving book is a match of the order that arrived. -/
theorem Receiving.names {symbol : CString} {fresh : ι} {state state' : Engine α ι}
    (hreceiving : Receiving symbol fresh state) {buy sell : ι}
    (htraded : Traded state state' buy sell) : buy = fresh ∨ sell = fresh := by
  by_contra hneither
  obtain ⟨hbuy, hsell⟩ := not_or.mp hneither
  apply htraded.crossing
  exact hreceiving.lt_of_live (htraded.head_bids hbuy) (htraded.head_asks hsell)
    htraded.buyLive htraded.sellLive

/-- Without the order that arrived, a match leaves the bids as they were or takes
away the best of them, and so with the offers: what did not match before does not
match now. -/
theorem Receiving.quiet_after {symbol : CString} {fresh : ι} {state state' : Engine α ι}
    (hreceiving : Receiving symbol fresh state) {buy sell : ι}
    (htraded : Traded state state' buy sell) : QuietWithout fresh state' := by
  have hordered := hreceiving.ordered
  have haligned := hordered.aligned
  obtain ⟨bids, hbids⟩ := htraded.bids_cons
  obtain ⟨asks, hasks⟩ := htraded.asks_cons
  have hbidsAfter : state'.ladder.bids = Ladder.dropFilled state'.orders (buy :: bids) :=
    hbids ▸ htraded.bids_eq hordered
  have hasksAfter : state'.ladder.asks = Ladder.dropFilled state'.orders (sell :: asks) :=
    hasks ▸ htraded.asks_eq hordered
  intro otherBuy hotherBuy otherSell hotherSell
  have hbidMem := List.mem_filter.mp (List.mem_of_mem_head? hotherBuy)
  have haskMem := List.mem_filter.mp (List.mem_of_mem_head? hotherSell)
  have hbidNe : otherBuy ≠ fresh := by simpa using hbidMem.2
  have haskNe : otherSell ≠ fresh := by simpa using haskMem.2
  have hbidStored : otherBuy ∈ state'.book.buyOrders.orders := List.mem_reverse.mp hbidMem.1
  have hprice := htraded.sameTerms.price
  apply Bool.eq_false_iff.mpr
  intro hmatch
  obtain ⟨hbidLive, haskLive, _, hcross⟩ := isMatchPossible_iff.mp hmatch
  rw [hprice, hprice] at hcross
  apply hcross
  -- the pair would have matched with the order that was traded away in its place
  rcases hreceiving.names htraded with rfl | rfl
  · have hsame : state'.orders otherBuy = state.orders otherBuy := by
      apply htraded.others otherBuy hbidNe
      exact haligned.ne_of_sides (htraded.mem_side true hbidStored) htraded.sell_mem
    rw [hbidsAfter, filter_dropFilled_self, ← hbids] at hotherBuy
    calc (state.orders otherBuy).price
        < (state.orders sell).price := hreceiving.lt_of_live hotherBuy
          (htraded.head_asks htraded.ne.symm) (hsame ▸ hbidLive) htraded.sellLive
      _ ≤ (state.orders otherSell).price := hordered.sellSorted.price_ge_of_findMin
          haligned.sell htraded.bestSell otherSell (htraded.mem_side false haskMem.1)
  · have hsame : state'.orders otherSell = state.orders otherSell := by
      refine htraded.others otherSell (Ne.symm ?_) haskNe
      exact haligned.ne_of_sides htraded.buy_mem (htraded.mem_side false haskMem.1)
    rw [hasksAfter, filter_dropFilled_self, ← hasks] at hotherSell
    calc (state.orders otherBuy).price
        ≤ (state.orders buy).price := hordered.buySorted.price_le_of_findMax
          haligned.buy htraded.bestBuy otherBuy (htraded.mem_side true hbidStored)
      _ < (state.orders otherSell).price := hreceiving.lt_of_live
          (htraded.head_bids htraded.ne) hotherSell htraded.buyLive (hsame ▸ haskLive)

theorem Receiving.matchOnce {symbol : CString} {fresh : ι} {state state' : Engine α ι}
    (hreceiving : Receiving symbol fresh state) (hnext : state.matchOnce = some state') :
    Receiving symbol fresh state' := by
  have hordered := hreceiving.ordered
  obtain ⟨buy, sell, htraded⟩ := hordered.aligned.traded hnext
  refine ⟨htraded.ordered hordered, ?_, hreceiving.quiet_after htraded⟩
  intro order horder
  rw [htraded.sameTerms.symbol]
  exact hreceiving.symbols order (htraded.mem_storedOrders horder)

/-- Adding an order to a settled book. -/
theorem Settled.receiving {symbol : CString} {state : Engine α ι}
    (hsettled : Settled symbol state) {fresh : ι} (hfresh : fresh ∉ state.storedOrders)
    (hsymbol : (state.orders fresh).symbol = symbol) :
    Receiving symbol fresh (state.addOrder fresh).2 := by
  obtain ⟨hnotBuy, hnotSell⟩ := not_or.mp fun h => hfresh (mem_storedOrders.mpr h)
  have hbids : ((state.addOrder fresh).2.ladder.bids.filter fun order => order ≠ fresh) =
      state.ladder.bids := by
    rw [ladder, addOrder_eq, List.filter_reverse]
    apply congrArg List.reverse
    dsimp only
    split_ifs
    · exact AVLTree.insert_orders_filter hnotBuy _ _
    · exact List.filter_eq_self.mpr fun order horder => by
        simpa using fun heq : order = fresh => hnotBuy (heq ▸ horder)
  have hasks : ((state.addOrder fresh).2.ladder.asks.filter fun order => order ≠ fresh) =
      state.ladder.asks := by
    rw [ladder, addOrder_eq]
    dsimp only
    split_ifs
    · exact List.filter_eq_self.mpr fun order horder => by
        simpa using fun heq : order = fresh => hnotSell (heq ▸ horder)
    · exact AVLTree.insert_orders_filter hnotSell _ _
  refine ⟨hsettled.ordered.perform (.add fresh), ?_, ?_⟩
  · intro order horder
    rw [addOrder_orders]
    rcases mem_storedOrders_of_addOrder horder with rfl | hold
    · exact hsymbol
    · exact hsettled.symbols order hold
  · intro buy hbuy sell hsell
    rw [hbids] at hbuy
    rw [hasks] at hsell
    rw [addOrder_orders]
    apply Bool.eq_false_iff.mpr
    intro hmatch
    have hpair : state.matchingPair = some (buy, sell) := by
      refine matchingPair_eq_some_iff.mpr ⟨?_, ?_, hmatch⟩
      · rw [AVLTree.findMax_eq, ← List.head?_reverse]
        exact hbuy
      · rw [AVLTree.findMin_eq]
        exact hsell
    rw [hsettled.quiet] at hpair
    exact absurd hpair (by simp)

/-- What handling an arriving order may change, compared with the state before:
only the new order and stored orders, and all new trades name the new order. -/
structure Arrived (before : Engine α ι) (fresh : ι) (after : Engine α ι) : Prop where
  stored : ∀ order ∈ after.storedOrders, order = fresh ∨ order ∈ before.storedOrders
  others : ∀ order, order ≠ fresh → order ∉ before.storedOrders →
    after.orders order = before.orders order
  trades : ∃ events, after.trades = before.trades ++ events ∧
    ∀ event ∈ events, event.Names fresh

theorem Arrived.matchOnce {symbol : CString} {fresh : ι} {before state state' : Engine α ι}
    (harrived : Arrived before fresh state) (hreceiving : Receiving symbol fresh state)
    (hnext : state.matchOnce = some state') : Arrived before fresh state' := by
  obtain ⟨buy, sell, htraded⟩ := hreceiving.ordered.aligned.traded hnext
  obtain ⟨events, hevents, hnames⟩ := harrived.trades
  have hbuyStored := harrived.stored buy (mem_storedOrders.mpr (Or.inl htraded.buy_mem))
  have hsellStored := harrived.stored sell (mem_storedOrders.mpr (Or.inr htraded.sell_mem))
  refine ⟨fun order horder => harrived.stored order (htraded.mem_storedOrders horder), ?_, ?_⟩
  · intro order hne hnotStored
    rw [htraded.others order, harrived.others order hne hnotStored]
    · rintro rfl
      exact hbuyStored.elim hne hnotStored
    · rintro rfl
      exact hsellStored.elim hne hnotStored
  · rw [htraded.trades, hevents, List.append_assoc]
    refine ⟨_, rfl, fun event hevent => ?_⟩
    rcases List.mem_append.mp hevent with hold | hnew
    · exact hnames event hold
    · rw [List.mem_singleton.mp hnew]
      exact hreceiving.names htraded

/-- Adding an order to a settled book and matching it settles the book again, and
trades nothing but the new order. -/
theorem Settled.place {symbol : CString} {state : Engine α ι} (hsettled : Settled symbol state)
    {fresh : ι} (hfresh : fresh ∉ state.storedOrders)
    (hsymbol : (state.orders fresh).symbol = symbol) :
    Settled symbol (state.addOrder fresh).2.matchOrders ∧
      Arrived state fresh (state.addOrder fresh).2.matchOrders := by
  have hreceiving := hsettled.receiving hfresh hsymbol
  have hadded : Arrived state fresh (state.addOrder fresh).2 := by
    refine ⟨fun order horder => mem_storedOrders_of_addOrder horder, ?_, [], ?_, by simp⟩
    · intro order _ _
      rw [addOrder_orders]
    · rw [addOrder_eq, List.append_nil]
  obtain ⟨hafter, harrived⟩ := matchOrders_invariant
    (fun current => Receiving symbol fresh current ∧ Arrived state fresh current)
    (fun _ _ h hnext => ⟨h.1.matchOnce hnext, h.2.matchOnce h.1 hnext⟩) ⟨hreceiving, hadded⟩
  exact ⟨⟨hafter.ordered, hafter.symbols, hreceiving.ordered.aligned.matchOrders_stuck⟩, harrived⟩

/-- Cancelling in a settled book leaves it settled, and changes stored orders only. -/
theorem Settled.cancelOrder {symbol : CString} {state : Engine α ι}
    (hsettled : Settled symbol state) (orderId : CString) (isBuyOrder : Bool) :
    Settled symbol (state.cancelOrder orderId isBuyOrder).2 ∧
      ∀ order, order ∉ state.storedOrders →
        (state.cancelOrder orderId isBuyOrder).2.orders order = state.orders order := by
  have hbook := state.cancelOrder_book orderId isBuyOrder
  have hsame := state.cancelOrder_sameTerms orderId isBuyOrder
  have hlive : ∀ {order}, ((state.cancelOrder orderId isBuyOrder).2.orders order).Live →
      (state.orders order).Live := by
    intro order hafter
    refine ⟨?_, (state.cancelOrder_remaining orderId isBuyOrder order) ▸ hafter.2⟩
    by_contra hcanceled
    have hstill := state.cancelOrder_keeps_canceled orderId isBuyOrder
      (Bool.not_eq_false _ ▸ hcanceled)
    rw [hafter.1] at hstill
    exact Bool.noConfusion hstill
  refine ⟨⟨hsettled.ordered.perform (.cancel orderId isBuyOrder), ?_, ?_⟩, ?_⟩
  · intro order horder
    rw [hsame.symbol]
    apply hsettled.symbols order
    rwa [storedOrders, hbook] at horder
  · apply Option.eq_none_iff_forall_ne_some.mpr
    rintro ⟨buy, sell⟩ hpair
    obtain ⟨hmax, hmin, hmatch⟩ := matchingPair_eq_some_iff.mp hpair
    obtain ⟨hbuy, hsell, hsymbols, hcross⟩ := isMatchPossible_iff.mp hmatch
    rw [hbook] at hmax hmin
    rw [hsame.symbol, hsame.symbol] at hsymbols
    rw [hsame.price, hsame.price] at hcross
    have hpair' := matchingPair_eq_some_iff.mpr
      ⟨hmax, hmin, isMatchPossible_iff.mpr ⟨hlive hbuy, hlive hsell, hsymbols, hcross⟩⟩
    rw [hsettled.quiet] at hpair'
    exact absurd hpair' (by simp)
  · intro order horder
    rcases hsettled.ordered.aligned.cancelOrder_cases orderId isBuyOrder with
      ⟨found, hfound, _, heq⟩ | ⟨_, heq⟩
    · rw [heq]
      refine Function.update_of_ne ?_ _ _
      rintro rfl
      have hstored := AVLNode.mem_of_mem_searchPath hfound
      refine horder (mem_storedOrders.mpr ?_)
      cases isBuyOrder
      · exact Or.inr hstored
      · exact Or.inl hstored
    · rw [heq]

end Engine

end QuantTrading
