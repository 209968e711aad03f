import QuantTrading.Engine.OrderBook
import Mathlib.Data.Finset.Card
import Mathlib.Data.Fintype.Basic

/-! # Steps of the matching loop

An engine is aligned when every node carries the key and the side of the order it
points to. Alignment already gives the two things the matching loop needs, for
prices compared in any way: the two orders of a match are different objects, so
an iteration does what `Traded` says, and the loop ends because no pair matches.
-/

namespace QuantTrading

variable {α ι : Type*}

/-- The entry `order_book_add_order` stores for an order. -/
def Entry.of (orders : ι → Order α) (order : ι) : Entry α ι where
  price := (orders order).price
  timestamp := (orders order).timestamp
  order := order

/-- Every entry of the tree copies the key of its order, and the order belongs to
the side of the tree. -/
def AVLTree.Aligned (orders : ι → Order α) (isBuyOrder : Bool) (tree : AVLTree α ι) : Prop :=
  ∀ entry ∈ tree.entries, entry = Entry.of orders entry.order ∧
    (orders entry.order).isBuyOrder = isBuyOrder

/-- Both trees of the book are aligned with the memory. -/
structure Engine.Aligned (state : Engine α ι) : Prop where
  buy : state.book.buyOrders.Aligned state.orders true
  sell : state.book.sellOrders.Aligned state.orders false

/-- Two memories hold orders with the same terms. -/
def SameTerms (orders orders' : ι → Order α) : Prop :=
  ∀ order, (orders' order).terms = (orders order).terms

namespace SameTerms

variable {orders orders' : ι → Order α}

theorem price (hsame : SameTerms orders orders') (order : ι) :
    (orders' order).price = (orders order).price := by
  simpa [Order.terms] using congrArg Order.price (hsame order)

theorem timestamp (hsame : SameTerms orders orders') (order : ι) :
    (orders' order).timestamp = (orders order).timestamp := by
  simpa [Order.terms] using congrArg Order.timestamp (hsame order)

theorem symbol (hsame : SameTerms orders orders') (order : ι) :
    (orders' order).symbol = (orders order).symbol := by
  simpa [Order.terms] using congrArg Order.symbol (hsame order)

theorem isBuyOrder (hsame : SameTerms orders orders') (order : ι) :
    (orders' order).isBuyOrder = (orders order).isBuyOrder := by
  simpa [Order.terms] using congrArg Order.isBuyOrder (hsame order)

theorem quantity (hsame : SameTerms orders orders') (order : ι) :
    (orders' order).quantity = (orders order).quantity := by
  simpa [Order.terms] using congrArg Order.quantity (hsame order)

theorem entry (hsame : SameTerms orders orders') (order : ι) :
    Entry.of orders' order = Entry.of orders order := by
  simp only [Entry.of, hsame.price, hsame.timestamp]

theorem refl (orders : ι → Order α) : SameTerms orders orders := fun _ => rfl

theorem trans {orders'' : ι → Order α} (hfirst : SameTerms orders orders')
    (hsecond : SameTerms orders' orders'') : SameTerms orders orders'' :=
  fun order => (hsecond order).trans (hfirst order)

/-- Changing one order within its terms. -/
theorem update [DecidableEq ι] (hsame : SameTerms orders orders') {order : ι} {record : Order α}
    (hrecord : record.terms = (orders order).terms) :
    SameTerms orders (Function.update orders' order record) := by
  intro other
  by_cases heq : other = order
  · subst heq
    simpa using hrecord
  · simpa [Function.update_of_ne heq] using hsame other

end SameTerms

namespace AVLTree

/-- Alignment depends on the keys and the sides of the stored orders. -/
theorem Aligned.congr_entry {orders orders' : ι → Order α} {isBuyOrder : Bool}
    {tree : AVLTree α ι} (haligned : tree.Aligned orders isBuyOrder)
    (hsame : ∀ order ∈ tree.orders, Entry.of orders' order = Entry.of orders order ∧
      (orders' order).isBuyOrder = (orders order).isBuyOrder) :
    tree.Aligned orders' isBuyOrder := by
  intro entry hentry
  obtain ⟨hkey, hside⟩ := haligned entry hentry
  obtain ⟨hentrySame, hsideSame⟩ := hsame entry.order (mem_orders.mpr ⟨entry, hentry, rfl⟩)
  exact ⟨hkey.trans hentrySame.symm, hsideSame.trans hside⟩

theorem Aligned.congr_terms {orders orders' : ι → Order α} {isBuyOrder : Bool}
    {tree : AVLTree α ι} (haligned : tree.Aligned orders isBuyOrder)
    (hsame : ∀ order ∈ tree.orders, (orders' order).terms = (orders order).terms) :
    tree.Aligned orders' isBuyOrder := by
  apply haligned.congr_entry
  intro order horder
  have hterms := hsame order horder
  have hprice : (orders' order).price = (orders order).price := by
    simpa [Order.terms] using congrArg Order.price hterms
  have htimestamp : (orders' order).timestamp = (orders order).timestamp := by
    simpa [Order.terms] using congrArg Order.timestamp hterms
  have hbuy : (orders' order).isBuyOrder = (orders order).isBuyOrder := by
    simpa [Order.terms] using congrArg Order.isBuyOrder hterms
  refine ⟨?_, hbuy⟩
  rw [Entry.of, Entry.of, hprice, htimestamp]

theorem mem_orders_of_findMax {tree : AVLTree α ι} {order : ι} (hmax : tree.findMax = some order) :
    order ∈ tree.orders :=
  List.mem_of_mem_getLast? (tree.findMax_eq ▸ hmax)

theorem mem_orders_of_findMin {tree : AVLTree α ι} {order : ι} (hmin : tree.findMin = some order) :
    order ∈ tree.orders :=
  List.mem_of_mem_head? (tree.findMin_eq ▸ hmin)

theorem Aligned.side_of_mem {orders : ι → Order α} {isBuyOrder : Bool} {tree : AVLTree α ι}
    (htree : tree.Aligned orders isBuyOrder) {order : ι} (horder : order ∈ tree.orders) :
    (orders order).isBuyOrder = isBuyOrder := by
  obtain ⟨entry, hentry, rfl⟩ := mem_orders.mp horder
  exact (htree entry hentry).2

theorem Aligned.congr {orders orders' : ι → Order α} {isBuyOrder : Bool}
    {tree : AVLTree α ι} (haligned : tree.Aligned orders isBuyOrder)
    (hsame : ∀ order ∈ tree.orders, orders' order = orders order) :
    tree.Aligned orders' isBuyOrder :=
  haligned.congr_terms fun order horder => congrArg Order.terms (hsame order horder)

section Search

variable [LT α] [DecidableLT α] [BEq α]

theorem insert_entries_cases (tree : AVLTree α ι) (price : α) (timestamp : Int) (order : ι) :
    ((tree.insert price timestamp order).entries = tree.entries ∧ ∃ entry ∈ tree.entries,
      AVLNode.compareNodes price timestamp entry.price entry.timestamp tree.isBuyTree = 0) ∨
    ∃ first second, tree.entries = first ++ second ∧
      (tree.insert price timestamp order).entries = first ++ ⟨price, timestamp, order⟩ :: second :=
  AVLNode.insertNode_toList_cases (tree.insertNode_eq_some price timestamp order)

theorem eq_or_mem_of_mem_insert {tree : AVLTree α ι} {price : α} {timestamp : Int} {order : ι}
    {entry : Entry α ι} (hentry : entry ∈ (tree.insert price timestamp order).entries) :
    entry = ⟨price, timestamp, order⟩ ∨ entry ∈ tree.entries := by
  rcases tree.insert_entries_cases price timestamp order with
    ⟨hsame, _⟩ | ⟨first, second, hold, hnew⟩
  · exact Or.inr (hsame ▸ hentry)
  · rw [hnew] at hentry
    rw [hold]
    simpa [or_left_comm] using hentry

theorem mem_insert_of_mem {tree : AVLTree α ι} {price : α} {timestamp : Int} {order : ι}
    {entry : Entry α ι} (hentry : entry ∈ tree.entries) :
    entry ∈ (tree.insert price timestamp order).entries := by
  rcases tree.insert_entries_cases price timestamp order with
    ⟨hsame, _⟩ | ⟨first, second, hold, hnew⟩
  · rwa [hsame]
  · rw [hold] at hentry
    rw [hnew]
    rcases List.mem_append.mp hentry with hfirst | hsecond
    · exact List.mem_append_left _ hfirst
    · exact List.mem_append_right _ (List.mem_cons_of_mem _ hsecond)

theorem mem_orders_insert_of_mem {tree : AVLTree α ι} {price : α} {timestamp : Int}
    {order other : ι} (hother : other ∈ tree.orders) :
    other ∈ (tree.insert price timestamp order).orders := by
  obtain ⟨entry, hentry, rfl⟩ := mem_orders.mp hother
  exact mem_orders.mpr ⟨entry, mem_insert_of_mem hentry, rfl⟩

theorem eq_or_mem_orders_of_insert {tree : AVLTree α ι} {price : α} {timestamp : Int}
    {order other : ι} (hother : other ∈ (tree.insert price timestamp order).orders) :
    other = order ∨ other ∈ tree.orders := by
  obtain ⟨entry, hentry, rfl⟩ := mem_orders.mp hother
  rcases eq_or_mem_of_mem_insert hentry with rfl | hold
  · exact Or.inl rfl
  · exact Or.inr (mem_orders.mpr ⟨entry, hold, rfl⟩)

/-- Apart from the inserted order the tree holds what it held before. -/
theorem insert_orders_filter [DecidableEq ι] {tree : AVLTree α ι} {order : ι}
    (hnew : order ∉ tree.orders) (price : α) (timestamp : Int) :
    ((tree.insert price timestamp order).orders.filter fun other => other ≠ order) =
      tree.orders := by
  have hkeep : (tree.orders.filter fun other => other ≠ order) = tree.orders := by
    apply List.filter_eq_self.mpr
    intro other hother
    have hne : other ≠ order := fun heq => hnew (heq ▸ hother)
    simpa using hne
  rcases tree.insert_entries_cases price timestamp order with
    ⟨hsame, _⟩ | ⟨first, second, hold, hinsert⟩
  · rw [AVLTree.orders, hsame]
    exact hkeep
  · rw [AVLTree.orders, hinsert, List.map_append, List.map_cons, List.filter_append,
      List.filter_cons_of_neg (by simp), ← List.filter_append, ← List.map_append, ← hold]
    exact hkeep

theorem mem_of_mem_deleteOrder {tree : AVLTree α ι} {price : α} {timestamp : Int}
    {entry : Entry α ι} (hentry : entry ∈ (tree.deleteOrder price timestamp).entries) :
    entry ∈ tree.entries :=
  AVLNode.mem_of_mem_deleteNode (tree.deleteNode_eq_some price timestamp) hentry

theorem mem_orders_of_mem_deleteOrder {tree : AVLTree α ι} {price : α} {timestamp : Int}
    {order : ι} (horder : order ∈ (tree.deleteOrder price timestamp).orders) :
    order ∈ tree.orders := by
  obtain ⟨entry, hentry, rfl⟩ := mem_orders.mp horder
  exact mem_orders.mpr ⟨entry, mem_of_mem_deleteOrder hentry, rfl⟩

theorem Aligned.insert {orders : ι → Order α} {isBuyOrder : Bool} {tree : AVLTree α ι}
    (htree : tree.Aligned orders isBuyOrder) {order : ι}
    (hside : (orders order).isBuyOrder = isBuyOrder) :
    (tree.insert (orders order).price (orders order).timestamp order).Aligned orders
      isBuyOrder := by
  intro entry hentry
  rcases eq_or_mem_of_mem_insert hentry with rfl | hold
  · exact ⟨rfl, hside⟩
  · exact htree entry hold

theorem Aligned.deleteOrder {orders : ι → Order α} {isBuyOrder : Bool} {tree : AVLTree α ι}
    (htree : tree.Aligned orders isBuyOrder) (price : α) (timestamp : Int) :
    (tree.deleteOrder price timestamp).Aligned orders isBuyOrder :=
  fun entry hentry => htree entry (mem_of_mem_deleteOrder hentry)

end Search

end AVLTree

theorem SameTerms.aligned {orders orders' : ι → Order α} (hsame : SameTerms orders orders')
    {isBuyOrder : Bool} {tree : AVLTree α ι} (htree : tree.Aligned orders isBuyOrder) :
    tree.Aligned orders' isBuyOrder :=
  htree.congr_terms fun order _ => hsame order

/-! ## One iteration of the matching loop -/

theorem isMatchPossible_iff [LT α] [DecidableLT α] {buyOrder sellOrder : Order α} :
    isMatchPossible buyOrder sellOrder = true ↔
      buyOrder.Live ∧ sellOrder.Live ∧ buyOrder.symbol = sellOrder.symbol ∧
        ¬ buyOrder.price < sellOrder.price := by
  unfold isMatchPossible Order.Live
  by_cases hbuy : buyOrder.isCanceled <;> by_cases hsell : sellOrder.isCanceled <;>
    by_cases hsymbol : buyOrder.symbol = sellOrder.symbol <;>
    by_cases hprice : buyOrder.price < sellOrder.price <;>
    simp [hbuy, hsell, hsymbol, hprice]

namespace Engine

theorem Aligned.side {state : Engine α ι} (haligned : state.Aligned) (isBuyOrder : Bool) :
    (state.book.side isBuyOrder).Aligned state.orders isBuyOrder := by
  cases isBuyOrder with
  | true => exact haligned.buy
  | false => exact haligned.sell

/-- An order of the buy tree is not one of the sell tree. -/
theorem Aligned.ne_of_sides {state : Engine α ι} (haligned : state.Aligned) {buy sell : ι}
    (hbuy : buy ∈ state.book.buyOrders.orders) (hsell : sell ∈ state.book.sellOrders.orders) :
    buy ≠ sell := by
  rintro rfl
  have hside := haligned.sell.side_of_mem hsell
  rw [haligned.buy.side_of_mem hbuy] at hside
  exact Bool.noConfusion hside

theorem matchingPair_eq_some_iff [LT α] [DecidableLT α] {state : Engine α ι} {buy sell : ι} :
    state.matchingPair = some (buy, sell) ↔
      state.book.buyOrders.findMax = some buy ∧ state.book.sellOrders.findMin = some sell ∧
        isMatchPossible (state.orders buy) (state.orders sell) = true := by
  unfold matchingPair
  cases hmax : state.book.buyOrders.findMax with
  | none => simp
  | some bestBuy =>
      cases hmin : state.book.sellOrders.findMin with
      | none => simp
      | some bestSell =>
          simp only [Option.some.injEq]
          split_ifs with hmatch
          · simp only [Option.some.injEq, Prod.mk.injEq]
            exact ⟨by rintro ⟨rfl, rfl⟩; exact ⟨rfl, rfl, hmatch⟩, fun h => ⟨h.1, h.2.1⟩⟩
          · apply iff_of_false (by simp)
            rintro ⟨rfl, rfl, h⟩
            exact hmatch h

theorem matchQuantity_eq_min (state : Engine α ι) (buy sell : ι) :
    state.matchQuantity buy sell =
      min (state.orders buy).remainingQuantity (state.orders sell).remainingQuantity := by
  unfold matchQuantity
  split_ifs <;> omega

section Reduction

variable [DecidableEq ι]

theorem reducedOrders_of_ne {state : Engine α ι} {buy sell order : ι} (hbuy : order ≠ buy)
    (hsell : order ≠ sell) : state.reducedOrders buy sell order = state.orders order := by
  simp [reducedOrders, Function.update_of_ne hsell, Function.update_of_ne hbuy]

variable {state : Engine α ι} {buy sell : ι}

omit [DecidableEq ι] in
/-- Both reductions of a match between live orders succeed. -/
theorem reduceQuantity_succeeds (hbuy : (state.orders buy).Live)
    (hsell : (state.orders sell).Live) :
    ((state.orders buy).reduceQuantity (state.matchQuantity buy sell)).1 = 0 ∧
      ((state.orders sell).reduceQuantity (state.matchQuantity buy sell)).1 = 0 := by
  obtain ⟨_, hbuyPos⟩ := hbuy
  obtain ⟨_, hsellPos⟩ := hsell
  rw [matchQuantity_eq_min]
  constructor <;> rw [Order.reduceQuantity_of_le (by omega) (by omega)]

theorem reducedOrders_buy (hne : buy ≠ sell) (hbuy : (state.orders buy).Live)
    (hsell : (state.orders sell).Live) :
    state.reducedOrders buy sell buy = { state.orders buy with
      remainingQuantity :=
        (state.orders buy).remainingQuantity - state.matchQuantity buy sell } := by
  obtain ⟨_, hbuyPos⟩ := hbuy
  obtain ⟨_, hsellPos⟩ := hsell
  have hmin := state.matchQuantity_eq_min buy sell
  rw [reducedOrders, Function.update_of_ne hne, Function.update_self,
    Order.reduceQuantity_of_le (by omega) (by omega)]

theorem reducedOrders_sell (hne : buy ≠ sell) (hbuy : (state.orders buy).Live)
    (hsell : (state.orders sell).Live) :
    state.reducedOrders buy sell sell = { state.orders sell with
      remainingQuantity :=
        (state.orders sell).remainingQuantity - state.matchQuantity buy sell } := by
  obtain ⟨_, hbuyPos⟩ := hbuy
  obtain ⟨_, hsellPos⟩ := hsell
  have hmin := state.matchQuantity_eq_min buy sell
  rw [reducedOrders, Function.update_self, Function.update_of_ne hne.symm,
    Order.reduceQuantity_of_le (by omega) (by omega)]

end Reduction

variable [LT α] [DecidableLT α] [BEq α] [DecidableEq ι]

theorem matchOnce_eq_some_iff {state state' : Engine α ι} :
    state.matchOnce = some state' ↔
      ∃ buy sell, state.matchingPair = some (buy, sell) ∧ state' = state.tradePair buy sell := by
  unfold matchOnce
  constructor
  · intro hsome
    obtain ⟨⟨buy, sell⟩, hpair, hstate⟩ := Option.map_eq_some_iff.mp hsome
    exact ⟨buy, sell, hpair, hstate.symm⟩
  · rintro ⟨buy, sell, hpair, rfl⟩
    rw [hpair]
    rfl

theorem matchOnce_eq_none_iff {state : Engine α ι} :
    state.matchOnce = none ↔ state.matchingPair = none := by
  simp [matchOnce]

@[simp] theorem tradePair_orders (state : Engine α ι) (buy sell : ι) :
    (state.tradePair buy sell).orders = state.reducedOrders buy sell := by
  unfold tradePair removeFilledSell removeFilledBuy
  dsimp only
  split_ifs <;> rfl

@[simp] theorem tradePair_trades (state : Engine α ι) (buy sell : ι) :
    (state.tradePair buy sell).trades = (state.processMatch buy sell).trades := by
  unfold tradePair removeFilledSell removeFilledBuy
  dsimp only
  split_ifs <;> rfl

theorem tradePair_buyOrders (state : Engine α ι) (buy sell : ι) :
    (state.tradePair buy sell).book.buyOrders =
      if (state.reducedOrders buy sell buy).remainingQuantity = 0 then
        state.book.buyOrders.deleteOrder (state.reducedOrders buy sell buy).price
          (state.reducedOrders buy sell buy).timestamp
      else state.book.buyOrders := by
  unfold tradePair removeFilledSell removeFilledBuy processMatch
  dsimp only
  split_ifs <;> rfl

theorem tradePair_sellOrders (state : Engine α ι) (buy sell : ι) :
    (state.tradePair buy sell).book.sellOrders =
      if (state.reducedOrders buy sell sell).remainingQuantity = 0 then
        state.book.sellOrders.deleteOrder (state.reducedOrders buy sell sell).price
          (state.reducedOrders buy sell sell).timestamp
      else state.book.sellOrders := by
  unfold tradePair removeFilledSell removeFilledBuy processMatch
  dsimp only
  split_ifs <;> rfl

omit [BEq α] [DecidableEq ι] in
/-- In an aligned engine the two orders of a match are different objects. -/
theorem Aligned.ne_of_matchingPair {state : Engine α ι} (haligned : state.Aligned) {buy sell : ι}
    (hpair : state.matchingPair = some (buy, sell)) : buy ≠ sell := by
  obtain ⟨hmax, hmin, _⟩ := matchingPair_eq_some_iff.mp hpair
  exact haligned.ne_of_sides (AVLTree.mem_orders_of_findMax hmax)
    (AVLTree.mem_orders_of_findMin hmin)

/-- Everything one iteration of the matching loop does to an aligned engine. -/
structure Traded (state state' : Engine α ι) (buy sell : ι) : Prop where
  bestBuy : state.book.buyOrders.findMax = some buy
  bestSell : state.book.sellOrders.findMin = some sell
  ne : buy ≠ sell
  buyLive : (state.orders buy).Live
  sellLive : (state.orders sell).Live
  symbol : (state.orders buy).symbol = (state.orders sell).symbol
  crossing : ¬ (state.orders buy).price < (state.orders sell).price
  buyAfter : state'.orders buy = { state.orders buy with
    remainingQuantity := (state.orders buy).remainingQuantity - state.matchQuantity buy sell }
  sellAfter : state'.orders sell = { state.orders sell with
    remainingQuantity := (state.orders sell).remainingQuantity - state.matchQuantity buy sell }
  others : ∀ order, order ≠ buy → order ≠ sell → state'.orders order = state.orders order
  buyTree : state'.book.buyOrders =
    if (state'.orders buy).remainingQuantity = 0 then
      state.book.buyOrders.deleteOrder (state.orders buy).price (state.orders buy).timestamp
    else state.book.buyOrders
  sellTree : state'.book.sellOrders =
    if (state'.orders sell).remainingQuantity = 0 then
      state.book.sellOrders.deleteOrder (state.orders sell).price (state.orders sell).timestamp
    else state.book.sellOrders
  trades : state'.trades = state.trades ++
    [{ buyOrder := buy
       sellOrder := sell
       symbol := (state.orders buy).symbol
       buyOrderId := (state.orders buy).orderId
       sellOrderId := (state.orders sell).orderId
       price := (state.orders sell).price
       quantity := state.matchQuantity buy sell }]

theorem Aligned.traded {state state' : Engine α ι} (haligned : state.Aligned)
    (hnext : state.matchOnce = some state') : ∃ buy sell, Traded state state' buy sell := by
  obtain ⟨buy, sell, hpair, rfl⟩ := matchOnce_eq_some_iff.mp hnext
  obtain ⟨hmax, hmin, hmatch⟩ := matchingPair_eq_some_iff.mp hpair
  obtain ⟨hbuy, hsell, hsymbol, hprice⟩ := isMatchPossible_iff.mp hmatch
  have hne := haligned.ne_of_matchingPair hpair
  have hbuyAfter := reducedOrders_buy hne hbuy hsell
  have hsellAfter := reducedOrders_sell hne hbuy hsell
  refine ⟨buy, sell, hmax, hmin, hne, hbuy, hsell, hsymbol, hprice, ?_, ?_, ?_, ?_, ?_, ?_⟩
  · rw [tradePair_orders, hbuyAfter]
  · rw [tradePair_orders, hsellAfter]
  · intro order hnotBuy hnotSell
    rw [tradePair_orders, reducedOrders_of_ne hnotBuy hnotSell]
  · rw [tradePair_orders, tradePair_buyOrders, hbuyAfter]
  · rw [tradePair_orders, tradePair_sellOrders, hsellAfter]
  · rw [tradePair_trades, processMatch, hbuyAfter, hsellAfter]

namespace Traded

variable {state state' : Engine α ι} {buy sell : ι}

omit [DecidableEq ι] in
theorem buy_mem (htraded : Traded state state' buy sell) : buy ∈ state.book.buyOrders.orders :=
  AVLTree.mem_orders_of_findMax htraded.bestBuy

omit [DecidableEq ι] in
theorem sell_mem (htraded : Traded state state' buy sell) : sell ∈ state.book.sellOrders.orders :=
  AVLTree.mem_orders_of_findMin htraded.bestSell

omit [DecidableEq ι] in
theorem matchingPair_eq (htraded : Traded state state' buy sell) :
    state.matchingPair = some (buy, sell) :=
  matchingPair_eq_some_iff.mpr ⟨htraded.bestBuy, htraded.bestSell,
    isMatchPossible_iff.mpr
      ⟨htraded.buyLive, htraded.sellLive, htraded.symbol, htraded.crossing⟩⟩

omit [DecidableEq ι] in
theorem quantity_pos (htraded : Traded state state' buy sell) :
    0 < state.matchQuantity buy sell ∧
      state.matchQuantity buy sell ≤ (state.orders buy).remainingQuantity ∧
      state.matchQuantity buy sell ≤ (state.orders sell).remainingQuantity := by
  have hbuy := htraded.buyLive.2
  have hsell := htraded.sellLive.2
  rw [matchQuantity_eq_min]
  omega

/-- Of any order an iteration changes at most what remains of it, and that
downwards. -/
theorem after (htraded : Traded state state' buy sell) (order : ι) :
    ∃ remaining ≤ (state.orders order).remainingQuantity,
      state'.orders order = { state.orders order with remainingQuantity := remaining } := by
  obtain ⟨hpos, _, _⟩ := htraded.quantity_pos
  by_cases hbuy : order = buy
  · subst hbuy
    exact ⟨_, Int.sub_le_self _ hpos.le, htraded.buyAfter⟩
  · by_cases hsell : order = sell
    · subst hsell
      exact ⟨_, Int.sub_le_self _ hpos.le, htraded.sellAfter⟩
    · exact ⟨_, le_rfl, htraded.others order hbuy hsell⟩

theorem sameTerms (htraded : Traded state state' buy sell) :
    SameTerms state.orders state'.orders := by
  intro order
  obtain ⟨_, _, hafter⟩ := htraded.after order
  rw [hafter]
  rfl

theorem isCanceled (htraded : Traded state state' buy sell) (order : ι) :
    (state'.orders order).isCanceled = (state.orders order).isCanceled := by
  obtain ⟨_, _, hafter⟩ := htraded.after order
  rw [hafter]

theorem remaining_le (htraded : Traded state state' buy sell) (order : ι) :
    (state'.orders order).remainingQuantity ≤ (state.orders order).remainingQuantity := by
  obtain ⟨_, hle, hafter⟩ := htraded.after order
  rw [hafter]
  exact hle

omit [DecidableEq ι] in
/-- Neither of the two orders is overfilled. -/
theorem remaining_nonneg (htraded : Traded state state' buy sell) {order : ι}
    (horder : order = buy ∨ order = sell) : 0 ≤ (state'.orders order).remainingQuantity := by
  obtain ⟨_, hbuyLe, hsellLe⟩ := htraded.quantity_pos
  rcases horder with rfl | rfl
  · rw [htraded.buyAfter]
    exact Int.sub_nonneg_of_le hbuyLe
  · rw [htraded.sellAfter]
    exact Int.sub_nonneg_of_le hsellLe

omit [DecidableEq ι] in
/-- An iteration fills one of its two orders completely. -/
theorem filled (htraded : Traded state state' buy sell) :
    (state'.orders buy).remainingQuantity = 0 ∨ (state'.orders sell).remainingQuantity = 0 := by
  have hmin := state.matchQuantity_eq_min buy sell
  rw [htraded.buyAfter, htraded.sellAfter]
  dsimp only
  omega

omit [DecidableEq ι] in
/-- On either side an iteration deletes the key of its order there when that order
is filled, and else leaves the tree alone. -/
theorem side (htraded : Traded state state' buy sell) (isBuyOrder : Bool) :
    ∃ order ∈ (state.book.side isBuyOrder).orders, state'.book.side isBuyOrder =
      if (state'.orders order).remainingQuantity = 0 then
        (state.book.side isBuyOrder).deleteOrder (state.orders order).price
          (state.orders order).timestamp
      else state.book.side isBuyOrder := by
  cases isBuyOrder with
  | true => exact ⟨buy, htraded.buy_mem, htraded.buyTree⟩
  | false => exact ⟨sell, htraded.sell_mem, htraded.sellTree⟩

omit [DecidableEq ι] in
theorem mem_side (htraded : Traded state state' buy sell) (isBuyOrder : Bool) {order : ι}
    (horder : order ∈ (state'.book.side isBuyOrder).orders) :
    order ∈ (state.book.side isBuyOrder).orders := by
  obtain ⟨_, _, htree⟩ := htraded.side isBuyOrder
  rw [htree] at horder
  split_ifs at horder
  · exact AVLTree.mem_orders_of_mem_deleteOrder horder
  · exact horder

theorem aligned (htraded : Traded state state' buy sell) (haligned : state.Aligned) :
    state'.Aligned := by
  have hside : ∀ isBuyOrder, (state'.book.side isBuyOrder).Aligned state'.orders isBuyOrder := by
    intro isBuyOrder
    apply htraded.sameTerms.aligned
    obtain ⟨_, _, htree⟩ := htraded.side isBuyOrder
    rw [htree]
    split_ifs
    · exact (haligned.side isBuyOrder).deleteOrder _ _
    · exact haligned.side isBuyOrder
  exact ⟨hside true, hside false⟩

end Traded

theorem Aligned.matchOnce {state state' : Engine α ι} (haligned : state.Aligned)
    (hnext : state.matchOnce = some state') : state'.Aligned := by
  obtain ⟨buy, sell, htraded⟩ := haligned.traded hnext
  exact htraded.aligned haligned

/-! ## The matching loop ends at a book without a matching pair -/

/-- The early exits of `order_book_match_orders` only skip a loop that would not
iterate. -/
theorem matchOrders_eq_loop (state : Engine α ι) :
    state.matchOrders = Transition.loop Engine.matchOnce state.matchFuel state := by
  have hskip : state.matchingPair = none →
      state = Transition.loop Engine.matchOnce state.matchFuel state := fun hnone =>
    (Transition.loop_of_none (matchOnce_eq_none_iff.mpr hnone) _).symm
  unfold matchOrders
  split_ifs with hbuy hsell hnone
  · apply hskip
    rw [AVLTree.isEmpty_iff] at hbuy
    simp [matchingPair, AVLTree.findMax_eq, AVLTree.orders, hbuy]
  · apply hskip
    rw [AVLTree.isEmpty_iff] at hsell
    simp [matchingPair, AVLTree.findMin_eq, AVLTree.orders, hsell]
  · exact hskip (Option.isNone_iff_eq_none.mp hnone)
  · rfl

/-- What every iteration preserves, a whole call of `order_book_match_orders`
preserves. -/
theorem matchOrders_invariant (invariant : Engine α ι → Prop)
    (hnext : ∀ state state', invariant state → state.matchOnce = some state' → invariant state')
    {state : Engine α ι} (hstate : invariant state) : invariant state.matchOrders := by
  rw [matchOrders_eq_loop]
  exact Transition.loop_invariant invariant hnext _ hstate

/-- The trades of a call of `order_book_match_orders`, one for each state in which
it makes a match. -/
theorem matchOrders_trades (invariant : Engine α ι → Prop)
    {emits : Engine α ι → TradeEvent α ι → Prop}
    (hnext : ∀ state state', invariant state → state.matchOnce = some state' →
      invariant state' ∧
        ∃ event, state'.trades = state.trades ++ [event] ∧ emits state event)
    {state : Engine α ι} (hstate : invariant state) :
    ∃ events, state.matchOrders.trades = state.trades ++ events ∧
      List.Forall₂ emits state.matchStates events := by
  rw [matchOrders_eq_loop]
  exact Transition.loop_output invariant hnext _ hstate

/-- The stored orders that still have something to trade. -/
def unfilled (state : Engine α ι) : Finset ι :=
  (state.book.buyOrders.orders ++ state.book.sellOrders.orders).toFinset.filter
    fun order => 0 < (state.orders order).remainingQuantity

omit [LT α] [DecidableLT α] [BEq α] in
theorem mem_unfilled {state : Engine α ι} {order : ι} :
    order ∈ state.unfilled ↔
      (order ∈ state.book.buyOrders.orders ∨ order ∈ state.book.sellOrders.orders) ∧
        0 < (state.orders order).remainingQuantity := by
  simp [unfilled]

omit [LT α] [DecidableLT α] [BEq α] in
theorem card_unfilled_le (state : Engine α ι) : state.unfilled.card ≤ state.matchFuel := by
  refine (Finset.card_filter_le _ _).trans ((List.toFinset_card_le _).trans ?_)
  simp [AVLTree.orders, AVLTree.entries, HeightTree.length_toList, matchFuel]

theorem Traded.card_unfilled_lt {state state' : Engine α ι} {buy sell : ι}
    (htraded : Traded state state' buy sell) : state'.unfilled.card < state.unfilled.card := by
  apply Finset.card_lt_card
  rw [Finset.ssubset_iff_of_subset]
  · rcases htraded.filled with hbuy | hsell
    · refine ⟨buy, mem_unfilled.mpr ⟨Or.inl ?_, htraded.buyLive.2⟩, ?_⟩
      · exact htraded.buy_mem
      · simp [mem_unfilled, hbuy]
    · refine ⟨sell, mem_unfilled.mpr ⟨Or.inr ?_, htraded.sellLive.2⟩, ?_⟩
      · exact htraded.sell_mem
      · simp [mem_unfilled, hsell]
  · intro order horder
    obtain ⟨hstored, hpos⟩ := mem_unfilled.mp horder
    refine mem_unfilled.mpr ⟨hstored.imp (htraded.mem_side true) (htraded.mem_side false), ?_⟩
    exact hpos.trans_le (htraded.remaining_le order)

/-- The fuel never runs out: when `order_book_match_orders` returns, the best pair
does not match. -/
theorem Aligned.matchOrders_stuck {state : Engine α ι} (haligned : state.Aligned) :
    state.matchOrders.matchingPair = none := by
  rw [← matchOnce_eq_none_iff, matchOrders_eq_loop]
  refine Transition.loop_stuck Aligned (fun current => current.unfilled.card)
    (fun _ _ h hnext => Aligned.matchOnce h hnext) ?_ haligned state.card_unfilled_le
  intro current next hcurrent hnext
  obtain ⟨buy, sell, htraded⟩ := hcurrent.traded hnext
  exact htraded.card_unfilled_lt

end Engine

end QuantTrading
