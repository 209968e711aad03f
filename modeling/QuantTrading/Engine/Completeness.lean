import QuantTrading.Engine.Ladder
import QuantTrading.Engine.Representation
import QuantTrading.Foundation.ServiceQueue

/-! # When matching is complete

The matching loop only looks at the top of each tree, and dead orders (cancelled,
or without a positive quantity) are never taken out of a tree. Each side of the
book is a queue that the other side serves: what trades is what the live orders
above the first dead order hold, and a live order behind a dead one is not
reached. The loop leaves no live crossing pair exactly when one order of each
such pair is filled by the reachable quantity of the other side.
-/

namespace QuantTrading

open ServiceQueue

variable {α ι : Type*}

namespace Engine

/-- What the orders have left. -/
def remaining (orders : ι → Order α) (order : ι) : Int :=
  (orders order).remainingQuantity

/-- The orders that can trade. -/
def IsLive (orders : ι → Order α) (order : ι) : Prop :=
  (orders order).Live

instance (orders : ι → Order α) : DecidablePred (IsLive orders) :=
  fun order => inferInstanceAs (Decidable (orders order).Live)

/-- The quantity of the live orders in front of the first dead order. -/
def reachableVolume (orders : ι → Order α) (queue : List ι) : Int :=
  volume (remaining orders) (leading (IsLive orders) queue)

/-- An order of a queue is live with all orders in front of it, and together they
are for no more than `amount`. -/
def FilledBy (orders : ι → Order α) (queue : List ι) (amount : Int) (order : ι) : Prop :=
  Within (remaining orders) (IsLive orders) queue amount order

theorem remaining_pos_of_isLive {orders : ι → Order α} (order : ι) (hlive : IsLive orders order) :
    0 < remaining orders order :=
  hlive.2

variable [LinearOrder α] [DecidableEq ι]

/-- How far a call of `order_book_match_orders` that began in `start` has served
the two sides: both by the same quantity. -/
structure Serving (start state : Engine α ι) (amount : Int) : Prop where
  ordered : state.Ordered
  sameTerms : SameTerms start.orders state.orders
  isCanceled : ∀ order, (state.orders order).isCanceled = (start.orders order).isCanceled
  bids : ∃ served, start.ladder.bids = served ++ state.ladder.bids ∧
    Served (remaining start.orders) (IsLive start.orders) (remaining state.orders) served
      state.ladder.bids amount
  asks : ∃ served, start.ladder.asks = served ++ state.ladder.asks ∧
    Served (remaining start.orders) (IsLive start.orders) (remaining state.orders) served
      state.ladder.asks amount

omit [DecidableEq ι] in
theorem Ordered.serving {state : Engine α ι} (hordered : state.Ordered) :
    Serving state state 0 :=
  ⟨hordered, SameTerms.refl _, fun _ => rfl, ⟨[], rfl, served_start _⟩,
    ⟨[], rfl, served_start _⟩⟩

omit [LinearOrder α] [DecidableEq ι] in
/-- One side of a match: the order in front is served the traded quantity. -/
theorem serve_front {start orders orders' : ι → Order α} {served rest : List ι} {head : ι}
    {amount quantity : Int}
    (hserved : Served (remaining start) (IsLive start) (remaining orders) served (head :: rest)
      amount)
    (hcanceled : (orders head).isCanceled = (start head).isCanceled)
    (hlive : (orders head).Live) (hquantity : 0 < quantity)
    (hle : quantity ≤ (orders head).remainingQuantity)
    (hhead : (orders' head).remainingQuantity = (orders head).remainingQuantity - quantity)
    (hsame : ∀ order ∈ served ++ rest, orders' order = orders order) :
    ∃ served', served ++ head :: rest = served' ++ Ladder.dropFilled orders' (head :: rest) ∧
      Served (remaining start) (IsLive start) (remaining orders') served'
        (Ladder.dropFilled orders' (head :: rest)) (amount + quantity) := by
  have helig : IsLive start head := by
    refine ⟨hcanceled ▸ hlive.1, ?_⟩
    rcases hserved.front head rfl with heq | ⟨helig, _, _⟩
    · exact hlive.2.trans_eq heq
    · exact helig.2
  have hleft : ∀ order ∈ served ++ rest, remaining orders' order = remaining orders order :=
    fun order horder => by rw [remaining, hsame order horder, remaining]
  rw [Ladder.dropFilled]
  split_ifs with hfilled
  · refine ⟨served ++ [head], by simp, ?_⟩
    obtain rfl : quantity = (orders head).remainingQuantity := by omega
    exact hserved.serve_rest helig hfilled hleft
  · refine ⟨served, rfl, ?_⟩
    exact hserved.serve_part hquantity (by rw [remaining]; omega) helig hhead hleft

omit [LinearOrder α] [DecidableEq ι] in
/-- In a list without duplicates, what stands beside `x` in the first part differs
from it and from the second part. -/
theorem ne_of_nodup_append {front rest other : List ι} {x y z : ι}
    (hnodup : (front ++ x :: rest ++ other).Nodup) (hy : y ∈ other) (hz : z ∈ front ++ rest) :
    z ≠ x ∧ z ≠ y := by
  obtain ⟨hfirst, _, hapart⟩ := List.nodup_append.mp hnodup
  constructor
  · rintro rfl
    exact (List.nodup_middle.mp hfirst).notMem hz
  · refine hapart z ?_ y hy
    simp only [List.mem_append, List.mem_cons] at hz ⊢
    tauto

/-- A match serves both sides what it trades. -/
theorem Serving.traded {start state state' : Engine α ι} {amount : Int} {buy sell : ι}
    (hstart : start.Ordered) (hserving : Serving start state amount)
    (htraded : Traded state state' buy sell) :
    Serving start state' (amount + state.matchQuantity buy sell) := by
  obtain ⟨hquantity, hbuyLe, hsellLe⟩ := htraded.quantity_pos
  obtain ⟨servedBids, hbids, hservedBids⟩ := hserving.bids
  obtain ⟨servedAsks, hasks, hservedAsks⟩ := hserving.asks
  obtain ⟨restBids, hrestBids⟩ := htraded.bids_cons
  obtain ⟨restAsks, hrestAsks⟩ := htraded.asks_cons
  -- the orders of both queues are pairwise different, so a match changes its own two only
  have hnodup : (start.ladder.bids ++ start.ladder.asks).Nodup := by
    have hstored := hstart.nodup_storedOrders
    rw [storedOrders] at hstored
    exact ((List.reverse_perm _).symm.append_right _).nodup hstored
  rw [hbids, hasks, hrestBids, hrestAsks] at hnodup
  have hbidsSame : ∀ order ∈ servedBids ++ restBids,
      state'.orders order = state.orders order := by
    intro order horder
    obtain ⟨hbuy, hsell⟩ := ne_of_nodup_append hnodup (y := sell) (by simp) horder
    exact htraded.others order hbuy hsell
  have hasksSame : ∀ order ∈ servedAsks ++ restAsks,
      state'.orders order = state.orders order := by
    intro order horder
    obtain ⟨hsell, hbuy⟩ := ne_of_nodup_append (List.nodup_append_comm.mp hnodup) (y := buy)
      (by simp) horder
    exact htraded.others order hbuy hsell
  have hbidsAfter : state'.ladder.bids = Ladder.dropFilled state'.orders (buy :: restBids) :=
    hrestBids ▸ htraded.bids_eq hserving.ordered
  have hasksAfter : state'.ladder.asks = Ladder.dropFilled state'.orders (sell :: restAsks) :=
    hrestAsks ▸ htraded.asks_eq hserving.ordered
  rw [hrestBids] at hbids hservedBids
  rw [hrestAsks] at hasks hservedAsks
  refine ⟨htraded.ordered hserving.ordered, hserving.sameTerms.trans htraded.sameTerms,
    fun order => (htraded.isCanceled order).trans (hserving.isCanceled order), ?_, ?_⟩
  · rw [hbids, hbidsAfter]
    exact serve_front hservedBids (hserving.isCanceled buy) htraded.buyLive hquantity hbuyLe
      (by rw [htraded.buyAfter]) hbidsSame
  · rw [hasks, hasksAfter]
    exact serve_front hservedAsks (hserving.isCanceled sell) htraded.sellLive hquantity hsellLe
      (by rw [htraded.sellAfter]) hasksSame

/-- A call of `order_book_match_orders` serves both sides by one quantity. -/
theorem Ordered.serving_matchOrders {state : Engine α ι} (hordered : state.Ordered) :
    ∃ amount, Serving state state.matchOrders amount := by
  refine matchOrders_invariant (fun current => ∃ amount, Serving state current amount) ?_
    ⟨0, hordered.serving⟩
  rintro current next ⟨amount, hserving⟩ hnext
  obtain ⟨buy, sell, htraded⟩ := hserving.ordered.aligned.traded hnext
  exact ⟨_, hserving.traded hordered htraded⟩

omit [DecidableEq ι] in
/-- Whatever trades was live, and was filled by the reachable quantity of the other
side. -/
theorem Serving.filledBy {start state : Engine α ι} {amount : Int}
    (hserving : Serving start state amount) {order : ι} (hlive : (start.orders order).Live)
    (hdone : (state.orders order).remainingQuantity = 0) :
    (order ∈ start.ladder.bids → FilledBy start.orders start.ladder.bids
      (reachableVolume start.orders start.ladder.asks) order) ∧
    (order ∈ start.ladder.asks → FilledBy start.orders start.ladder.asks
      (reachableVolume start.orders start.ladder.bids) order) := by
  obtain ⟨servedBids, hbids, hservedBids⟩ := hserving.bids
  obtain ⟨servedAsks, hasks, hservedAsks⟩ := hserving.asks
  have hbidsLe := (hservedBids.amount_le_leading remaining_pos_of_isLive).1
  have hasksLe := (hservedAsks.amount_le_leading remaining_pos_of_isLive).1
  rw [← hbids] at hbidsLe
  rw [← hasks] at hasksLe
  constructor
  · intro horder
    rw [hbids] at horder
    obtain ⟨front, rest, hsplit, hfront, hvolume⟩ :=
      hservedBids.within_of_empty remaining_pos_of_isLive horder hlive hdone
    exact ⟨front, rest, hbids.trans hsplit, hfront, hvolume.trans hasksLe⟩
  · intro horder
    rw [hasks] at horder
    obtain ⟨front, rest, hsplit, hfront, hvolume⟩ :=
      hservedAsks.within_of_empty remaining_pos_of_isLive horder hlive hdone
    exact ⟨front, rest, hasks.trans hsplit, hfront, hvolume.trans hbidsLe⟩

omit [DecidableEq ι] in
/-- An order that the reachable quantity of the other side fills, but that is still
live, leaves a live order at the top of both sides. -/
theorem Serving.live_tops {start state : Engine α ι} {amount : Int}
    (hserving : Serving start state amount) {order : ι} (hlive : (state.orders order).Live)
    (hfilled : FilledBy start.orders start.ladder.bids
        (reachableVolume start.orders start.ladder.asks) order ∨
      FilledBy start.orders start.ladder.asks
        (reachableVolume start.orders start.ladder.bids) order) :
    ∃ buy sell, state.ladder.bids.head? = some buy ∧ state.ladder.asks.head? = some sell ∧
      (state.orders buy).Live ∧ (state.orders sell).Live := by
  obtain ⟨servedBids, hbids, hservedBids⟩ := hserving.bids
  obtain ⟨servedAsks, hasks, hservedAsks⟩ := hserving.asks
  have hbidsFront := (hservedBids.amount_le_leading remaining_pos_of_isLive).2
  have hasksFront := (hservedAsks.amount_le_leading remaining_pos_of_isLive).2
  rw [← hbids] at hbidsFront
  rw [← hasks] at hasksFront
  have hstill : ∀ top, IsLive start.orders top → 0 < remaining state.orders top →
      (state.orders top).Live := fun top htop hleft =>
    ⟨(hserving.isCanceled top).trans htop.1, hleft⟩
  rcases hfilled with hfilled | hfilled
  · rw [FilledBy, hbids] at hfilled
    obtain ⟨hlt, buy, hbuy, hbuyLive, hbuyLeft⟩ :=
      hservedBids.lt_of_within remaining_pos_of_isLive hfilled hlive.2
    obtain ⟨sell, hsell, hsellLive, hsellLeft⟩ := hasksFront hlt
    exact ⟨buy, sell, hbuy, hsell, hstill buy hbuyLive hbuyLeft, hstill sell hsellLive hsellLeft⟩
  · rw [FilledBy, hasks] at hfilled
    obtain ⟨hlt, sell, hsell, hsellLive, hsellLeft⟩ :=
      hservedAsks.lt_of_within remaining_pos_of_isLive hfilled hlive.2
    obtain ⟨buy, hbuy, hbuyLive, hbuyLeft⟩ := hbidsFront hlt
    exact ⟨buy, sell, hbuy, hsell, hstill buy hbuyLive hbuyLeft, hstill sell hsellLive hsellLeft⟩

omit [DecidableEq ι] in
theorem Serving.stored {start state : Engine α ι} {amount : Int}
    (hserving : Serving start state amount) {order : ι} (horder : order ∈ state.storedOrders) :
    order ∈ start.storedOrders := by
  obtain ⟨servedBids, hbids, _⟩ := hserving.bids
  obtain ⟨servedAsks, hasks, _⟩ := hserving.asks
  rcases mem_storedOrders.mp horder with hbuy | hsell
  · have hbid : order ∈ start.ladder.bids :=
      hbids ▸ List.mem_append_right _ (List.mem_reverse.mpr hbuy)
    exact mem_storedOrders.mpr (Or.inl (List.mem_reverse.mp hbid))
  · have hask : order ∈ start.ladder.asks := hasks ▸ List.mem_append_right _ hsell
    exact mem_storedOrders.mpr (Or.inr hask)

/-- A buy and a sell order that can trade, at prices that cross. -/
def LiveCrossing (orders : ι → Order α) (buy sell : ι) : Prop :=
  (orders buy).Live ∧ (orders sell).Live ∧ (orders sell).price ≤ (orders buy).price

instance (orders : ι → Order α) (buy sell : ι) : Decidable (LiveCrossing orders buy sell) :=
  inferInstanceAs (Decidable (_ ∧ _ ∧ _))

omit [DecidableEq ι] in
/-- An order is live after a call when it was live before and has not been filled,
and then it is still stored. -/
theorem Serving.live_of_unfilled {start state : Engine α ι} {amount : Int}
    (hserving : Serving start state amount) {order : ι} (hlive : (start.orders order).Live)
    (hleft : (state.orders order).remainingQuantity ≠ 0) :
    (order ∈ start.ladder.bids → order ∈ state.ladder.bids ∧ (state.orders order).Live) ∧
    (order ∈ start.ladder.asks → order ∈ state.ladder.asks ∧ (state.orders order).Live) := by
  have hactive : (state.orders order).isCanceled = false :=
    (hserving.isCanceled order).trans hlive.1
  have hcase : ∀ {served waiting : List ι}, Served (remaining start.orders)
      (IsLive start.orders) (remaining state.orders) served waiting amount →
      order ∈ served ++ waiting → order ∈ waiting ∧ (state.orders order).Live := by
    intro served waiting hserved horder
    rcases List.mem_append.mp horder with hdone | hwaiting
    · exact absurd (hserved.done order hdone).2 hleft
    · have hpos := hserved.left_pos_of_waiting remaining_pos_of_isLive hwaiting hlive
      exact ⟨hwaiting, hactive, hpos⟩
  obtain ⟨servedBids, hbids, hservedBids⟩ := hserving.bids
  obtain ⟨servedAsks, hasks, hservedAsks⟩ := hserving.asks
  exact ⟨fun horder => hcase hservedBids (hbids ▸ horder),
    fun horder => hcase hservedAsks (hasks ▸ horder)⟩

omit [DecidableEq ι] in
/-- A crossing pair that is live after a call was one before it. -/
theorem Serving.liveCrossing {start state : Engine α ι} {amount : Int}
    (hserving : Serving start state amount) {buy sell : ι}
    (hbuy : buy ∈ state.ladder.bids) (hsell : sell ∈ state.ladder.asks)
    (hcross : LiveCrossing state.orders buy sell) :
    buy ∈ start.ladder.bids ∧ sell ∈ start.ladder.asks ∧ LiveCrossing start.orders buy sell := by
  obtain ⟨hbuyLive, hsellLive, hprice⟩ := hcross
  obtain ⟨servedBids, hbids, hservedBids⟩ := hserving.bids
  obtain ⟨servedAsks, hasks, hservedAsks⟩ := hserving.asks
  rw [hserving.sameTerms.price, hserving.sameTerms.price] at hprice
  refine ⟨hbids ▸ List.mem_append_right _ hbuy, hasks ▸ List.mem_append_right _ hsell, ?_, ?_,
    hprice⟩
  · exact ⟨(hserving.isCanceled buy).symm.trans hbuyLive.1,
      hbuyLive.2.trans_le (hservedBids.left_le hbuy)⟩
  · exact ⟨(hserving.isCanceled sell).symm.trans hsellLive.1,
      hsellLive.2.trans_le (hservedAsks.left_le hsell)⟩

omit [DecidableEq ι] in
/-- Two tops that are live, of one symbol and do not match, do not cross. -/
theorem price_lt_of_stuck {state : Engine α ι} (hstuck : state.matchingPair = none)
    {buy sell : ι} (hbuy : state.ladder.bids.head? = some buy)
    (hsell : state.ladder.asks.head? = some sell) (hbuyLive : (state.orders buy).Live)
    (hsellLive : (state.orders sell).Live)
    (hsymbol : (state.orders buy).symbol = (state.orders sell).symbol) :
    (state.orders buy).price < (state.orders sell).price := by
  by_contra hcross
  have hpair := matchingPair_eq_some_iff.mpr ⟨state.head_bids.symm.trans hbuy,
    state.head_asks.symm.trans hsell,
    isMatchPossible_iff.mpr ⟨hbuyLive, hsellLive, hsymbol, hcross⟩⟩
  rw [hstuck] at hpair
  exact absurd hpair (by simp)

omit [DecidableEq ι] in
/-- The first of some of the bids has their highest price. -/
theorem Ordered.price_le_of_head_bids {state : Engine α ι} (hordered : state.Ordered)
    {bids : List ι} (hbids : bids.Sublist state.ladder.bids) {top : ι}
    (htop : bids.head? = some top) :
    ∀ order ∈ bids, (state.orders order).price ≤ (state.orders top).price := by
  have hasc := hordered.buySorted.ascending_orders hordered.aligned.buy
  have hdesc := (List.pairwise_reverse.mpr hasc).sublist hbids
  obtain ⟨rest, rfl⟩ := List.head?_eq_some_iff.mp htop
  intro order horder
  rcases List.mem_cons.mp horder with rfl | hrest
  · exact le_rfl
  · exact Order.price_le_of_key_le ((List.pairwise_cons.mp hdesc).1 order hrest).le

omit [DecidableEq ι] in
/-- The first of some of the offers has their lowest price. -/
theorem Ordered.price_ge_of_head_asks {state : Engine α ι} (hordered : state.Ordered)
    {asks : List ι} (hasks : asks.Sublist state.ladder.asks) {top : ι}
    (htop : asks.head? = some top) :
    ∀ order ∈ asks, (state.orders top).price ≤ (state.orders order).price := by
  have hasc := hordered.sellSorted.ascending_orders hordered.aligned.sell
  intro order horder
  apply Order.price_le_of_key_le
  exact KeyedList.Ascending.head_le (hasc.sublist hasks) htop order horder

/-- In a reachable book of one symbol, `order_book_match_orders` leaves no live
crossing pair if and only if in each such pair before the call one order is
filled by the reachable quantity of the other side. -/
theorem run_matchOrders_complete_iff (orders : ι → Order α) (ops : List (BookOp ι))
    (symbol : CString) (hsymbol : ∀ order ∈
      (Transition.run Engine.perform (init orders) ops).storedOrders,
        (orders order).symbol = symbol) :
    let before := Transition.run Engine.perform (init orders) ops
    let after := before.matchOrders
    let bids := before.book.buyOrders.orders.reverse
    let asks := before.book.sellOrders.orders
    (∀ buy ∈ after.book.buyOrders.orders, ∀ sell ∈ after.book.sellOrders.orders,
      ¬ LiveCrossing after.orders buy sell) ↔
    ∀ buy ∈ bids, ∀ sell ∈ asks, LiveCrossing before.orders buy sell →
      FilledBy before.orders bids (reachableVolume before.orders asks) buy ∨
        FilledBy before.orders asks (reachableVolume before.orders bids) sell := by
  intro before after bids asks
  have hordered : before.Ordered := run_ordered orders ops
  have hterms : SameTerms orders before.orders := run_sameTerms orders ops
  obtain ⟨amount, hserving⟩ := hordered.serving_matchOrders
  have hbidsMem : ∀ order, order ∈ after.ladder.bids ↔ order ∈ after.book.buyOrders.orders :=
    fun _ => List.mem_reverse
  constructor
  · intro hcomplete buy hbuy sell hsell hcross
    obtain ⟨hbuyLive, hsellLive, hprice⟩ := hcross
    -- a pair of which neither order is filled would survive the call
    by_contra hunfilled
    obtain ⟨hbuyUnfilled, hsellUnfilled⟩ := not_or.mp hunfilled
    have hbuyLeft : (after.orders buy).remainingQuantity ≠ 0 := fun hdone =>
      hbuyUnfilled ((hserving.filledBy hbuyLive hdone).1 hbuy)
    have hsellLeft : (after.orders sell).remainingQuantity ≠ 0 := fun hdone =>
      hsellUnfilled ((hserving.filledBy hsellLive hdone).2 hsell)
    obtain ⟨hbuyAfter, hbuyStill⟩ := (hserving.live_of_unfilled hbuyLive hbuyLeft).1 hbuy
    obtain ⟨hsellAfter, hsellStill⟩ := (hserving.live_of_unfilled hsellLive hsellLeft).2 hsell
    refine hcomplete buy ((hbidsMem buy).mp hbuyAfter) sell hsellAfter
      ⟨hbuyStill, hsellStill, ?_⟩
    rw [hserving.sameTerms.price, hserving.sameTerms.price]
    exact hprice
  · intro hfilled buy hbuy sell hsell hcross
    obtain ⟨hbuyBefore, hsellBefore, hcrossBefore⟩ :=
      hserving.liveCrossing ((hbidsMem buy).mpr hbuy) hsell hcross
    -- the tops of both sides would be live without matching
    have htops : ∃ topBuy topSell, after.ladder.bids.head? = some topBuy ∧
        after.ladder.asks.head? = some topSell ∧ (after.orders topBuy).Live ∧
          (after.orders topSell).Live := by
      rcases hfilled buy hbuyBefore sell hsellBefore hcrossBefore with hfill | hfill
      · exact hserving.live_tops hcross.1 (Or.inl hfill)
      · exact hserving.live_tops hcross.2.1 (Or.inr hfill)
    obtain ⟨topBuy, topSell, htopBuy, htopSell, hbuyLive, hsellLive⟩ := htops
    have hsymbols : ∀ order ∈ after.storedOrders, (after.orders order).symbol = symbol := by
      intro order horder
      rw [hserving.sameTerms.symbol, hterms.symbol]
      exact hsymbol order (hserving.stored horder)
    have hsame : (after.orders topBuy).symbol = (after.orders topSell).symbol := by
      rw [hsymbols topBuy (mem_storedOrders.mpr (Or.inl ((hbidsMem topBuy).mp
        (List.mem_of_mem_head? htopBuy)))), hsymbols topSell (mem_storedOrders.mpr
        (Or.inr (List.mem_of_mem_head? htopSell)))]
    have hlt : (after.orders buy).price < (after.orders sell).price :=
      calc (after.orders buy).price
          ≤ (after.orders topBuy).price := hserving.ordered.price_le_of_head_bids
            (List.Sublist.refl _) htopBuy buy ((hbidsMem buy).mpr hbuy)
        _ < (after.orders topSell).price := price_lt_of_stuck
            hordered.aligned.matchOrders_stuck htopBuy htopSell hbuyLive hsellLive hsame
        _ ≤ (after.orders sell).price := hserving.ordered.price_ge_of_head_asks
            (List.Sublist.refl _) htopSell sell hsell
    exact hlt.not_ge hcross.2.2

/-- Matching a bid and an offer is complete, so one of them is filled by the other. -/
theorem run_matchOrders_complete_crossingOrders :
    let before := Transition.run Engine.perform (init crossingOrders) [.add 0, .add 1]
    let bids := before.book.buyOrders.orders.reverse
    let asks := before.book.sellOrders.orders
    FilledBy before.orders bids (reachableVolume before.orders asks) 0 ∨
      FilledBy before.orders asks (reachableVolume before.orders bids) 1 :=
  (run_matchOrders_complete_iff crossingOrders [.add 0, .add 1] "AAPL".toList (by decide)).mp
    (by decide) 0 (by decide) 1 (by decide) (by decide)

/-- Two bids and an offer that crosses both. -/
def blockedBids : Nat → Order Int
  | 0 => Order.sample "A" 11 5 true 1
  | 1 => Order.sample "B" 10 5 true 2
  | _ => Order.sample "S" 10 5 false 3

/-- A cancelled bid at the top keeps the bid behind it from trading. -/
theorem canceled_bid_blocks_matching :
    let after := Transition.run Engine.perform (init blockedBids)
      [.add 0, .add 1, .cancel "A".toList true, .add 2, .matchOrders]
    ¬ ∀ buy ∈ after.book.buyOrders.orders, ∀ sell ∈ after.book.sellOrders.orders,
      ¬ LiveCrossing after.orders buy sell := by
  decide

end Engine

end QuantTrading
