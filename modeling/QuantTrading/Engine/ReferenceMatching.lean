import QuantTrading.Engine.Ladder
import QuantTrading.Engine.Representation
import QuantTrading.Foundation.CrossedLists

/-! # The matcher on two lists

A reference for matching that knows nothing of trees: bids listed in descending and
offers in ascending order of `compare_nodes`, crossed at their heads by price alone.
In a book of one symbol whose orders can all trade, `order_book_match_orders` emits
the reference's trades and leaves its leftovers.
-/

namespace QuantTrading

open CrossedLists

variable {α ι : Type*}

namespace Ladder

/-- The orders of a list with what they have left. -/
def lots (orders : ι → Order α) (list : List ι) : List (ι × Int) :=
  list.map fun order => (order, (orders order).remainingQuantity)

/-- The trade that reports a deal: at the price of the sell order. -/
def tradeOf (orders : ι → Order α) (deal : Deal ι) : TradeEvent α ι where
  buyOrder := deal.buyer
  sellOrder := deal.seller
  symbol := (orders deal.buyer).symbol
  buyOrderId := (orders deal.buyer).orderId
  sellOrderId := (orders deal.seller).orderId
  price := (orders deal.seller).price
  quantity := deal.quantity

@[simp] theorem lots_cons (orders : ι → Order α) (order : ι) (list : List ι) :
    lots orders (order :: list) = (order, (orders order).remainingQuantity) :: lots orders list :=
  rfl

theorem lots_dropFilled (orders : ι → Order α) (list : List ι) :
    lots orders (dropFilled orders list) = dropExhausted (lots orders list) := by
  cases list with
  | nil => rfl
  | cons order rest =>
      rw [dropFilled, lots_cons, dropExhausted]
      split_ifs <;> rfl

theorem lots_congr {orders orders' : ι → Order α} {list : List ι}
    (hsame : ∀ order ∈ list, orders' order = orders order) : lots orders' list = lots orders list :=
  List.map_congr_left fun order horder => by rw [hsame order horder]

/-- Every order of a list has something left when every lot has. -/
theorem pos_of_lots {orders : ι → Order α} {list : List ι}
    (hpos : ∀ lot ∈ lots orders list, 0 < lot.2) :
    ∀ order ∈ list, 0 < (orders order).remainingQuantity := by
  intro order horder
  exact hpos (order, (orders order).remainingQuantity) (List.mem_map_of_mem horder)

section Fill

variable [DecidableEq ι]

theorem fill_remaining {orders : ι → Order α} {buy sell order : ι}
    (hside : order = buy ∨ order = sell) :
    (fill orders buy sell order).remainingQuantity = (orders order).remainingQuantity -
      min (orders buy).remainingQuantity (orders sell).remainingQuantity := by
  rw [fill, if_pos hside]

theorem fill_isCanceled (orders : ι → Order α) (buy sell order : ι) :
    (fill orders buy sell order).isCanceled = (orders order).isCanceled := by
  unfold fill
  split_ifs <;> rfl

theorem fill_sameTerms (orders : ι → Order α) (buy sell : ι) :
    SameTerms orders (fill orders buy sell) := by
  intro order
  unfold fill
  split_ifs <;> rfl

end Fill

/-- Two disjoint lists of orders of one symbol that can all trade. `terms` holds the
orders as they were when matching began. -/
structure Tradable (terms : ι → Order α) (symbol : CString) (ladder : Ladder α ι) : Prop where
  sameTerms : SameTerms terms ladder.orders
  nodup : (ladder.bids ++ ladder.asks).Nodup
  live : ∀ order ∈ ladder.bids ++ ladder.asks, (ladder.orders order).Live
  symbol : ∀ order ∈ ladder.bids ++ ladder.asks, (terms order).symbol = symbol

namespace Tradable

variable [DecidableEq ι] {terms : ι → Order α} {symbol : CString} {ladder : Ladder α ι}
  {buy sell : ι} {bids asks : List ι}

omit [DecidableEq ι] in
theorem lots_pos (htradable : Tradable terms symbol ladder) :
    (∀ lot ∈ lots ladder.orders ladder.bids, 0 < lot.2) ∧
      ∀ lot ∈ lots ladder.orders ladder.asks, 0 < lot.2 := by
  constructor
  · intro lot hlot
    obtain ⟨order, horder, rfl⟩ := List.mem_map.mp hlot
    exact (htradable.live order (List.mem_append_left _ horder)).2
  · intro lot hlot
    obtain ⟨order, horder, rfl⟩ := List.mem_map.mp hlot
    exact (htradable.live order (List.mem_append_right _ horder)).2

/-- What trading the heads leaves of each list. -/
theorem lots_trade (htradable : Tradable terms symbol ladder) (hbids : ladder.bids = buy :: bids)
    (hasks : ladder.asks = sell :: asks) :
    let quantity := min (ladder.orders buy).remainingQuantity (ladder.orders sell).remainingQuantity
    lots (ladder.trade buy sell).orders (ladder.trade buy sell).bids =
        dropExhausted ((buy, (ladder.orders buy).remainingQuantity - quantity) ::
          lots ladder.orders bids) ∧
      lots (ladder.trade buy sell).orders (ladder.trade buy sell).asks =
        dropExhausted ((sell, (ladder.orders sell).remainingQuantity - quantity) ::
          lots ladder.orders asks) := by
  intro quantity
  have hnodup := htradable.nodup
  rw [hbids, hasks] at hnodup
  have hbidsKept : ∀ order ∈ bids, fill ladder.orders buy sell order = ladder.orders order := by
    intro order horder
    apply fill_of_ne
    · rintro rfl
      exact (List.nodup_cons.mp hnodup.of_append_left).1 horder
    · rintro rfl
      exact List.disjoint_of_nodup_append hnodup (List.mem_cons_of_mem buy horder)
        List.mem_cons_self
  have hasksKept : ∀ order ∈ asks, fill ladder.orders buy sell order = ladder.orders order := by
    intro order horder
    apply fill_of_ne
    · rintro rfl
      exact List.disjoint_of_nodup_append hnodup List.mem_cons_self
        (List.mem_cons_of_mem sell horder)
    · rintro rfl
      exact (List.nodup_cons.mp hnodup.of_append_right).1 horder
  constructor
  · rw [trade, lots_dropFilled, hbids, lots_cons, fill_remaining (Or.inl rfl),
      lots_congr hbidsKept]
  · rw [trade, lots_dropFilled, hasks, lots_cons, fill_remaining (Or.inr rfl),
      lots_congr hasksKept]

/-- Trading the heads leaves two such lists. -/
theorem trade (htradable : Tradable terms symbol ladder) (hbids : ladder.bids = buy :: bids)
    (hasks : ladder.asks = sell :: asks) : Tradable terms symbol (ladder.trade buy sell) := by
  have hmem : ((ladder.trade buy sell).bids ++ (ladder.trade buy sell).asks).Sublist
      (ladder.bids ++ ladder.asks) :=
    (dropFilled_sublist _ _).append (dropFilled_sublist _ _)
  refine ⟨?_, htradable.nodup.sublist hmem, ?_, ?_⟩
  · exact htradable.sameTerms.trans (fill_sameTerms ladder.orders buy sell)
  · intro order horder
    refine ⟨?_, ?_⟩
    · rw [Ladder.trade, fill_isCanceled]
      exact (htradable.live order (hmem.subset horder)).1
    · obtain ⟨hlotsBids, hlotsAsks⟩ := htradable.lots_trade hbids hasks
      obtain ⟨hbidsPos, hasksPos⟩ := htradable.lots_pos
      rw [hbids, lots_cons] at hbidsPos
      rw [hasks, lots_cons] at hasksPos
      rcases List.mem_append.mp horder with hbid | hask
      · refine pos_of_lots ?_ order hbid
        rw [hlotsBids]
        exact dropExhausted_pos hbidsPos (min_le_left _ _)
      · refine pos_of_lots ?_ order hask
        rw [hlotsAsks]
        exact dropExhausted_pos hasksPos (min_le_right _ _)
  · exact fun order horder => htradable.symbol order (hmem.subset horder)

omit [DecidableEq ι] in
theorem heads_of_matchingPair [LT α] [DecidableLT α]
    (hpair : ladder.matchingPair = some (buy, sell)) :
    (∃ bids, ladder.bids = buy :: bids) ∧ ∃ asks, ladder.asks = sell :: asks := by
  unfold matchingPair at hpair
  split at hpair
  · rename_i bid ask hbid hask
    split_ifs at hpair
    obtain ⟨rfl, rfl⟩ : bid = buy ∧ ask = sell := by simpa using hpair
    exact ⟨List.head?_eq_some_iff.mp hbid, List.head?_eq_some_iff.mp hask⟩
  · cases hpair

/-- A trade empties the head of one list. -/
theorem trade_length_lt (htradable : Tradable terms symbol ladder)
    (hbids : ladder.bids = buy :: bids) (hasks : ladder.asks = sell :: asks) :
    (ladder.trade buy sell).bids.length + (ladder.trade buy sell).asks.length <
      ladder.bids.length + ladder.asks.length := by
  have hlots : ∀ (orders : ι → Order α) (list : List ι), (lots orders list).length = list.length :=
    fun _ _ => List.length_map _
  obtain ⟨hlotsBids, hlotsAsks⟩ := htradable.lots_trade hbids hasks
  rw [← hlots (ladder.trade buy sell).orders, hlotsBids, ← hlots (ladder.trade buy sell).orders,
    hlotsAsks, ← hlots ladder.orders ladder.bids, ← hlots ladder.orders ladder.asks, hbids, hasks]
  exact dropExhausted_lengths_lt buy sell _ _ _ _

omit [DecidableEq ι] in
theorem matchingPair_cons [LinearOrder α] (htradable : Tradable terms symbol ladder)
    (hbids : ladder.bids = buy :: bids) (hasks : ladder.asks = sell :: asks) :
    ladder.matchingPair =
      if (terms sell).price ≤ (terms buy).price then some (buy, sell) else none := by
  have hbuy : buy ∈ ladder.bids ++ ladder.asks := by simp [hbids]
  have hsell : sell ∈ ladder.bids ++ ladder.asks := by simp [hasks]
  have hpossible : isMatchPossible (ladder.orders buy) (ladder.orders sell) = true ↔
      (terms sell).price ≤ (terms buy).price := by
    rw [isMatchPossible_iff, htradable.sameTerms.symbol, htradable.sameTerms.symbol,
      htradable.symbol buy hbuy, htradable.symbol sell hsell, htradable.sameTerms.price,
      htradable.sameTerms.price, not_lt]
    simp [htradable.live buy hbuy, htradable.live sell hsell]
  rw [matchingPair, hbids, hasks]
  exact if_congr hpossible rfl rfl

/-- The trade the heads make is the one the deal of the reference reports. -/
theorem trade_trades (htradable : Tradable terms symbol ladder) :
    (ladder.trade buy sell).trades = ladder.trades ++ [tradeOf terms ⟨buy, sell,
      min (ladder.orders buy).remainingQuantity (ladder.orders sell).remainingQuantity⟩] := by
  rw [Ladder.trade, tradeOf, htradable.sameTerms.symbol, htradable.sameTerms.price,
    Order.orderId_eq_of_terms (htradable.sameTerms buy),
    Order.orderId_eq_of_terms (htradable.sameTerms sell)]

/-- The deals and leftovers of the reference on the lists of a ladder. -/
def reference [LinearOrder α] (terms : ι → Order α) (ladder : Ladder α ι) : Crossing ι :=
  cross (fun order => (terms order).price) (lots ladder.orders ladder.bids)
    (lots ladder.orders ladder.asks)

omit [DecidableEq ι] in
theorem reference_of_stuck [LinearOrder α] (htradable : Tradable terms symbol ladder)
    (hstuck : ladder.matchingPair = none) :
    reference terms ladder =
      ⟨[], lots ladder.orders ladder.bids, lots ladder.orders ladder.asks⟩ := by
  unfold reference
  cases hbids : ladder.bids with
  | nil => exact cross_nil_left _
  | cons buy bids =>
      cases hasks : ladder.asks with
      | nil => exact cross_nil_right _
      | cons sell asks =>
          apply cross_cons_of_not_le
          intro hprice
          rw [htradable.matchingPair_cons hbids hasks, if_pos hprice] at hstuck
          cases hstuck

theorem reference_of_pair [LinearOrder α] (htradable : Tradable terms symbol ladder)
    (hbids : ladder.bids = buy :: bids) (hasks : ladder.asks = sell :: asks)
    (hpair : ladder.matchingPair = some (buy, sell)) :
    reference terms ladder =
      { reference terms (ladder.trade buy sell) with
        deals := ⟨buy, sell, min (ladder.orders buy).remainingQuantity
          (ladder.orders sell).remainingQuantity⟩ ::
            (reference terms (ladder.trade buy sell)).deals } := by
  have hprice : (terms sell).price ≤ (terms buy).price := by
    by_contra hnot
    rw [htradable.matchingPair_cons hbids hasks, if_neg hnot] at hpair
    cases hpair
  obtain ⟨hlotsBids, hlotsAsks⟩ := htradable.lots_trade hbids hasks
  unfold reference
  rw [hlotsBids, hlotsAsks, hbids, hasks, lots_cons, lots_cons]
  apply cross_cons_of_le
  exact hprice

/-- A ladder ends with what the reference makes of another: its trades are added and
its leftovers remain. -/
def EndsAs [LinearOrder α] (terms : ι → Order α) (ladder final : Ladder α ι) : Prop :=
  final.trades = ladder.trades ++ (reference terms ladder).deals.map (tradeOf terms) ∧
    lots final.orders final.bids = (reference terms ladder).bids ∧
    lots final.orders final.asks = (reference terms ladder).asks

omit [DecidableEq ι] in
theorem endsAs_of_stuck [LinearOrder α] (htradable : Tradable terms symbol ladder)
    (hstuck : ladder.matchingPair = none) : EndsAs terms ladder ladder := by
  rw [EndsAs, htradable.reference_of_stuck hstuck]
  exact ⟨(List.append_nil _).symm, rfl, rfl⟩

/-- The matching loop on such lists is the reference. -/
theorem loop_endsAs [LinearOrder α] (htradable : Tradable terms symbol ladder) {fuel : Nat}
    (hfuel : ladder.bids.length + ladder.asks.length ≤ fuel) :
    EndsAs terms ladder (Transition.loop matchOnce fuel ladder) := by
  induction fuel generalizing ladder with
  | zero =>
      have hbids : ladder.bids = [] := List.length_eq_zero_iff.mp (by omega)
      apply htradable.endsAs_of_stuck
      rw [matchingPair, hbids]
      rfl
  | succ fuel ih =>
      cases hpair : ladder.matchingPair with
      | none =>
          have hnext : ladder.matchOnce = none := by rw [matchOnce, hpair, Option.map_none]
          rw [Transition.loop_of_none hnext]
          exact htradable.endsAs_of_stuck hpair
      | some pair =>
          obtain ⟨buy, sell⟩ := pair
          obtain ⟨⟨bids, hbids⟩, asks, hasks⟩ := heads_of_matchingPair hpair
          have hnext : ladder.matchOnce = some (ladder.trade buy sell) := by
            rw [matchOnce, hpair, Option.map_some]
          obtain ⟨htrades, hbidsLeft, hasksLeft⟩ := ih (htradable.trade hbids hasks) (by
            have hlt := htradable.trade_length_lt hbids hasks
            omega)
          rw [Transition.loop_of_some hnext, EndsAs,
            htradable.reference_of_pair hbids hasks hpair]
          refine ⟨?_, hbidsLeft, hasksLeft⟩
          rw [htrades, htradable.trade_trades, List.append_assoc]
          rfl

end Tradable

end Ladder

namespace Engine

open Ladder

/-- A book of one symbol in which every order can trade. -/
structure AllTradable (state : Engine α ι) (symbol : CString) : Prop where
  symbol : ∀ order ∈ state.storedOrders, (state.orders order).symbol = symbol
  live : ∀ order ∈ state.storedOrders, (state.orders order).Live

variable [LinearOrder α]

/-- The stored orders listed for the reference: the buy orders in descending, the sell
orders in ascending order of `compare_nodes`. -/
structure Listing (state : Engine α ι) (bids asks : List ι) : Prop where
  bidsStored : bids.Perm state.book.buyOrders.orders
  asksStored : asks.Perm state.book.sellOrders.orders
  bidsDescend : bids.Pairwise fun first second =>
    AVLNode.compareNodes (state.orders first).price (state.orders first).timestamp
      (state.orders second).price (state.orders second).timestamp true > 0
  asksAscend : asks.Pairwise fun first second =>
    AVLNode.compareNodes (state.orders first).price (state.orders first).timestamp
      (state.orders second).price (state.orders second).timestamp false < 0

/-- There is one listing of an ordered book: the walks of its trees. -/
theorem Ordered.listing_eq {state : Engine α ι} (hordered : state.Ordered) {bids asks : List ι}
    (hlisting : state.Listing bids asks) :
    bids = state.ladder.bids ∧ asks = state.ladder.asks := by
  have hbuy := hordered.buySorted.ascending_orders hordered.aligned.buy
  have hsell := hordered.sellSorted.ascending_orders hordered.aligned.sell
  constructor
  · apply List.Perm.eq_of_pairwise (fun _ _ _ _ h h' => absurd h' h.asymm)
      (hlisting.bidsDescend.imp fun hpos => AVLNode.compareNodes_pos_iff.mp hpos)
      (List.pairwise_reverse.mpr hbuy)
    exact hlisting.bidsStored.trans (List.reverse_perm _).symm
  · apply List.Perm.eq_of_pairwise (fun _ _ _ _ h h' => absurd h' h.asymm)
      (hlisting.asksAscend.imp fun hneg => AVLNode.compareNodes_neg_iff.mp hneg) hsell
    exact hlisting.asksStored

variable [DecidableEq ι]

omit [DecidableEq ι] in
theorem Ordered.tradable {state : Engine α ι} (hordered : state.Ordered) {symbol : CString}
    (hbook : state.AllTradable symbol) : Tradable state.orders symbol state.ladder := by
  have hperm : (state.ladder.bids ++ state.ladder.asks).Perm state.storedOrders :=
    (List.reverse_perm _).append_right _
  refine ⟨SameTerms.refl _, hperm.nodup_iff.mpr hordered.nodup_storedOrders, ?_, ?_⟩
  · exact fun order horder => hbook.live order (hperm.subset horder)
  · exact fun order horder => hbook.symbol order (hperm.subset horder)

/-- `order_book_match_orders` ends as the reference does. -/
theorem Ordered.matchOrders_endsAs {state : Engine α ι} (hordered : state.Ordered)
    {symbol : CString} (hbook : state.AllTradable symbol) :
    Tradable.EndsAs state.orders state.ladder state.matchOrders.ladder := by
  rw [hordered.ladder_matchOrders, Ladder.matchOrders]
  exact (hordered.tradable hbook).loop_endsAs le_rfl

/-- In a reachable book of one symbol whose orders can all trade, the matcher on the
trees emits the trades of the matcher on two lists and leaves its leftovers. -/
theorem run_matchOrders_eq_reference (orders : ι → Order α) (ops : List (BookOp ι))
    (symbol : CString)
    (hbook : (Transition.run Engine.perform (init orders) ops).AllTradable symbol)
    (bids asks : List ι)
    (hlisting : (Transition.run Engine.perform (init orders) ops).Listing bids asks) :
    let before := Transition.run Engine.perform (init orders) ops
    let after := before.matchOrders
    let reference := cross (fun order => (before.orders order).price) (lots before.orders bids)
      (lots before.orders asks)
    after.trades = before.trades ++ reference.deals.map (tradeOf before.orders) ∧
      lots after.orders after.book.buyOrders.orders.reverse = reference.bids ∧
      lots after.orders after.book.sellOrders.orders = reference.asks := by
  intro before after reference
  have hordered : before.Ordered := run_ordered orders ops
  obtain ⟨rfl, rfl⟩ := hordered.listing_eq hlisting
  exact hordered.matchOrders_endsAs hbook

/-! ## The quantity that trades -/

omit [LinearOrder α] [DecidableEq ι] in
/-- The order-independent sum over a list of orders. -/
theorem openQuantity_lots (orders : ι → Order α) (counts : ι → Bool) (list : List ι) :
    openQuantity counts (lots orders list) =
      ((list.filter counts).map fun order => (orders order).remainingQuantity).sum := by
  rw [openQuantity, lots, List.filter_map, List.map_map]
  rfl

/-- What the buy orders at or above a price have left. -/
def demandAt (state : Engine α ι) (limit : α) : Int :=
  ((state.book.buyOrders.orders.filter fun order => limit ≤ (state.orders order).price).map
    fun order => (state.orders order).remainingQuantity).sum

/-- What the sell orders at or below a price have left. -/
def supplyAt (state : Engine α ι) (limit : α) : Int :=
  ((state.book.sellOrders.orders.filter fun order => (state.orders order).price ≤ limit).map
    fun order => (state.orders order).remainingQuantity).sum

omit [DecidableEq ι] in
theorem demandAt_eq (state : Engine α ι) :
    state.demandAt = demand (fun order => (state.orders order).price)
      (lots state.orders state.ladder.bids) := by
  funext limit
  rw [demandAt, demand, openQuantity_lots]
  exact (((List.reverse_perm state.book.buyOrders.orders).filter _).map _).sum_eq.symm

omit [DecidableEq ι] in
theorem supplyAt_eq (state : Engine α ι) :
    state.supplyAt = supply (fun order => (state.orders order).price)
      (lots state.orders state.ladder.asks) := by
  funext limit
  rw [supplyAt, supply, openQuantity_lots]
  rfl

omit [DecidableEq ι] in
/-- The lists of an ordered book are in the order in which prices trade. -/
theorem Ordered.listed {state : Engine α ι} (hordered : state.Ordered) {symbol : CString}
    (hbook : state.AllTradable symbol) :
    Listed (fun order => (state.orders order).price) (lots state.orders state.ladder.bids)
      (lots state.orders state.ladder.asks) := by
  obtain ⟨hbidsPos, hasksPos⟩ := (hordered.tradable hbook).lots_pos
  refine ⟨?_, ?_, hbidsPos, hasksPos⟩
  · apply List.pairwise_map.mpr
    apply List.pairwise_reverse.mpr
    exact (hordered.buySorted.ascending_orders hordered.aligned.buy).imp fun hkey =>
      Order.price_le_of_key_le hkey.le
  · apply List.pairwise_map.mpr
    exact (hordered.sellSorted.ascending_orders hordered.aligned.sell).imp fun hkey =>
      Order.price_le_of_key_le hkey.le

/-- In a reachable book of one symbol whose orders can all trade, one call trades the
largest quantity that demand and supply share at any one price. -/
theorem run_matchOrders_volume [Nonempty α] (orders : ι → Order α) (ops : List (BookOp ι))
    (symbol : CString)
    (hbook : (Transition.run Engine.perform (init orders) ops).AllTradable symbol) :
    let before := Transition.run Engine.perform (init orders) ops
    ∃ events, before.matchOrders.trades = before.trades ++ events ∧
      IsGreatest (Set.range fun limit => min (before.demandAt limit) (before.supplyAt limit))
        (events.map TradeEvent.quantity).sum := by
  intro before
  have hordered : before.Ordered := run_ordered orders ops
  refine ⟨_, (hordered.matchOrders_endsAs hbook).1, ?_⟩
  have hsum : ∀ deals : List (Deal ι),
      ((deals.map (tradeOf before.orders)).map TradeEvent.quantity).sum = dealtQuantity deals := by
    intro deals
    rw [List.map_map]
    rfl
  rw [hsum, demandAt_eq, supplyAt_eq]
  exact dealt_isGreatest (hordered.listed hbook)

/-! ## A book in which orders fill across price levels -/

/-- Three bids and three offers; the best two of each side trade each other out. -/
def levelOrders : Nat → Order Int
  | 0 => Order.sample "B1" 105 4 true 1
  | 1 => Order.sample "B2" 103 6 true 2
  | 2 => Order.sample "B3" 100 5 true 3
  | 3 => Order.sample "S1" 99 7 false 4
  | 4 => Order.sample "S2" 101 3 false 5
  | _ => Order.sample "S3" 104 2 false 6

/-- The calls that store the orders. -/
def levelOps : List (BookOp Nat) :=
  [.add 0, .add 1, .add 2, .add 3, .add 4, .add 5]

theorem levelOrders_allTradable :
    (Transition.run Engine.perform (init levelOrders) levelOps).AllTradable "AAPL".toList :=
  ⟨by decide, by decide⟩

theorem run_matchOrders_eq_reference_levelOrders :
    let before := Transition.run Engine.perform (init levelOrders) levelOps
    let reference := cross (fun order => (before.orders order).price)
      (lots before.orders [0, 1, 2]) (lots before.orders [3, 4, 5])
    before.matchOrders.trades = before.trades ++ reference.deals.map (tradeOf before.orders) ∧
      before.matchOrders.trades.map TradeEvent.quantity = [4, 3, 3] ∧
      reference.bids = [(2, 5)] ∧ reference.asks = [(5, 2)] := by
  have hspec := run_matchOrders_eq_reference levelOrders levelOps "AAPL".toList
    levelOrders_allTradable [0, 1, 2] [3, 4, 5] ⟨by decide, by decide, by decide, by decide⟩
  exact ⟨hspec.1, by decide, hspec.2.1.symm, hspec.2.2.symm⟩

theorem run_matchOrders_volume_levelOrders :
    let before := Transition.run Engine.perform (init levelOrders) levelOps
    IsGreatest (Set.range fun limit => min (before.demandAt limit) (before.supplyAt limit)) 10 := by
  obtain ⟨events, htrades, hgreatest⟩ := run_matchOrders_volume levelOrders levelOps
    "AAPL".toList levelOrders_allTradable
  have hquantities : events.map TradeEvent.quantity = [4, 3, 3] := by
    have hall := congrArg (List.map TradeEvent.quantity) htrades
    rw [List.map_append] at hall
    exact hall.symm.trans (by decide)
  rw [hquantities] at hgreatest
  exact hgreatest

end Engine

end QuantTrading
