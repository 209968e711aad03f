import QuantTrading.Engine.AvlMap
import QuantTrading.Engine.BookRuns

/-! # Books with linearly ordered prices

When prices are linearly ordered, both trees of a reachable book are sorted
finite maps of the orders they point to. Removing a filled order by its key then
removes the node of that order and nothing else.
-/

namespace QuantTrading

open KeyedList

variable {α ι : Type*}

/-- The price and the timestamp of an order, ordered as `compare_nodes` does. -/
def Order.key (order : Order α) : α ×ₗ Int :=
  toLex (order.price, order.timestamp)

theorem Order.key_le_iff [LinearOrder α] {first second : Order α} :
    first.key ≤ second.key ↔ first.price < second.price ∨
      first.price = second.price ∧ first.timestamp ≤ second.timestamp :=
  Prod.Lex.toLex_le_toLex

theorem Order.price_le_of_key_le [LinearOrder α] {first second : Order α}
    (hkey : first.key ≤ second.key) : first.price ≤ second.price := by
  rcases Order.key_le_iff.mp hkey with hlt | ⟨heq, _⟩
  · exact hlt.le
  · exact heq.le

namespace AVLTree

/-- An aligned tree holds at most one entry per order. -/
theorem Aligned.entry_eq {orders : ι → Order α} {isBuyOrder : Bool} {tree : AVLTree α ι}
    (haligned : tree.Aligned orders isBuyOrder) {first second : Entry α ι}
    (hfirst : first ∈ tree.entries) (hsecond : second ∈ tree.entries)
    (heq : first.order = second.order) : first = second := by
  rw [(haligned first hfirst).1, (haligned second hsecond).1, heq]

theorem Aligned.mem_entries_iff {orders : ι → Order α} {isBuyOrder : Bool} {tree : AVLTree α ι}
    (haligned : tree.Aligned orders isBuyOrder) {order : ι} :
    order ∈ tree.orders ↔ Entry.of orders order ∈ tree.entries := by
  constructor
  · intro horder
    obtain ⟨entry, hentry, rfl⟩ := mem_orders.mp horder
    rwa [← (haligned entry hentry).1]
  · intro hentry
    exact mem_orders.mpr ⟨_, hentry, rfl⟩

/-- The entries of an aligned tree are those of its orders. -/
theorem Aligned.entries_eq {orders : ι → Order α} {isBuyOrder : Bool} {tree : AVLTree α ι}
    (haligned : tree.Aligned orders isBuyOrder) :
    tree.entries = tree.orders.map (Entry.of orders) := by
  rw [AVLTree.orders, List.map_map]
  exact (List.map_id _).symm.trans
    (List.map_congr_left fun entry hentry => (haligned entry hentry).1)

variable [LinearOrder α] {orders : ι → Order α} {isBuyOrder : Bool} {tree : AVLTree α ι}

theorem Sorted.ascending_orders (hsorted : tree.Sorted)
    (haligned : tree.Aligned orders isBuyOrder) :
    Ascending (fun order => (orders order).key) tree.orders := by
  rw [Sorted, haligned.entries_eq, Ascending, List.pairwise_map] at hsorted
  exact hsorted

theorem Sorted.nodup_orders (hsorted : tree.Sorted) (haligned : tree.Aligned orders isBuyOrder) :
    tree.orders.Nodup :=
  (hsorted.ascending_orders haligned).imp fun hlt heq => hlt.ne (by rw [heq])

/-- `avl_find_max` returns an order with the highest price. -/
theorem Sorted.price_le_of_findMax (hsorted : tree.Sorted)
    (haligned : tree.Aligned orders isBuyOrder) {order : ι} (hmax : tree.findMax = some order) :
    ∀ other ∈ tree.orders, (orders other).price ≤ (orders order).price := by
  intro other hother
  exact Order.price_le_of_key_le
    ((hsorted.ascending_orders haligned).le_last (tree.findMax_eq ▸ hmax) other hother)

/-- `avl_find_min` returns an order with the lowest price. -/
theorem Sorted.price_ge_of_findMin (hsorted : tree.Sorted)
    (haligned : tree.Aligned orders isBuyOrder) {order : ι} (hmin : tree.findMin = some order) :
    ∀ other ∈ tree.orders, (orders order).price ≤ (orders other).price := by
  intro other hother
  exact Order.price_le_of_key_le
    ((hsorted.ascending_orders haligned).head_le (tree.findMin_eq ▸ hmin) other hother)

/-- Deleting the key of a stored order removes the node of that order only. -/
theorem Sorted.deleteOrder_entries_eq [DecidableEq ι] (hsorted : tree.Sorted)
    (haligned : tree.Aligned orders isBuyOrder) {order : ι} (horder : order ∈ tree.orders) :
    (tree.deleteOrder (orders order).price (orders order).timestamp).entries =
      tree.entries.filter fun entry => entry.order ≠ order := by
  have hstored := haligned.mem_entries_iff.mp horder
  rw [deleteOrder_entries hsorted]
  apply List.filter_congr
  intro entry hentry
  rw [decide_eq_decide, not_iff_not]
  constructor
  · intro hkey
    exact congrArg Entry.order (hsorted.eq_of_key_eq hentry hstored hkey)
  · intro heq
    rw [haligned.entry_eq hentry hstored heq]
    rfl

theorem Sorted.deleteOrder_orders_eq [DecidableEq ι] (hsorted : tree.Sorted)
    (haligned : tree.Aligned orders isBuyOrder) {order : ι} (horder : order ∈ tree.orders) :
    (tree.deleteOrder (orders order).price (orders order).timestamp).orders =
      tree.orders.filter fun other => other ≠ order := by
  rw [AVLTree.orders, hsorted.deleteOrder_entries_eq haligned horder, AVLTree.orders,
    List.filter_map]
  rfl

end AVLTree

namespace Engine

variable [LinearOrder α]

/-- Both trees are sorted and aligned with the memory. -/
structure Ordered (state : Engine α ι) : Prop where
  aligned : state.Aligned
  buySorted : state.book.buyOrders.Sorted
  sellSorted : state.book.sellOrders.Sorted

theorem init_ordered (orders : ι → Order α) : (init orders).Ordered :=
  ⟨init_aligned orders, AVLTree.create_sorted true, AVLTree.create_sorted false⟩

theorem Ordered.side_sorted {state : Engine α ι} (hordered : state.Ordered) (isBuyOrder : Bool) :
    (state.book.side isBuyOrder).Sorted := by
  cases isBuyOrder with
  | true => exact hordered.buySorted
  | false => exact hordered.sellSorted

variable [DecidableEq ι]

/-- A match removes the nodes of the orders it fills completely, and no other. -/
theorem Traded.buyEntries {state state' : Engine α ι} {buy sell : ι}
    (htraded : Traded state state' buy sell) (hordered : state.Ordered) :
    state'.book.buyOrders.entries =
      if (state'.orders buy).remainingQuantity = 0 then
        state.book.buyOrders.entries.filter fun entry => entry.order ≠ buy
      else state.book.buyOrders.entries := by
  rw [htraded.buyTree]
  split_ifs
  · exact hordered.buySorted.deleteOrder_entries_eq hordered.aligned.buy htraded.buy_mem
  · rfl

theorem Traded.sellEntries {state state' : Engine α ι} {buy sell : ι}
    (htraded : Traded state state' buy sell) (hordered : state.Ordered) :
    state'.book.sellOrders.entries =
      if (state'.orders sell).remainingQuantity = 0 then
        state.book.sellOrders.entries.filter fun entry => entry.order ≠ sell
      else state.book.sellOrders.entries := by
  rw [htraded.sellTree]
  split_ifs
  · exact hordered.sellSorted.deleteOrder_entries_eq hordered.aligned.sell htraded.sell_mem
  · rfl

theorem Traded.ordered {state state' : Engine α ι} {buy sell : ι}
    (htraded : Traded state state' buy sell) (hordered : state.Ordered) : state'.Ordered := by
  have hsorted : ∀ isBuyOrder, (state'.book.side isBuyOrder).Sorted := by
    intro isBuyOrder
    obtain ⟨_, _, htree⟩ := htraded.side isBuyOrder
    rw [htree]
    split_ifs
    · exact AVLTree.deleteOrder_sorted (hordered.side_sorted isBuyOrder) _ _
    · exact hordered.side_sorted isBuyOrder
  exact ⟨htraded.aligned hordered.aligned, hsorted true, hsorted false⟩

theorem Ordered.matchOnce {state state' : Engine α ι} (hordered : state.Ordered)
    (hnext : state.matchOnce = some state') : state'.Ordered := by
  obtain ⟨buy, sell, htraded⟩ := hordered.aligned.traded hnext
  exact htraded.ordered hordered

theorem Ordered.perform {state : Engine α ι} (op : BookOp ι) (hordered : state.Ordered) :
    (state.perform op).Ordered := by
  cases op with
  | add order =>
      have hsorted : ∀ isBuyOrder, ((state.addOrder order).2.book.side isBuyOrder).Sorted := by
        intro isBuyOrder
        rw [addOrder_side]
        split_ifs
        · exact AVLTree.insert_sorted (hordered.side_sorted isBuyOrder) _ _ _
        · exact hordered.side_sorted isBuyOrder
      exact ⟨hordered.aligned.perform (.add order), hsorted true, hsorted false⟩
  | cancel orderId isBuyOrder =>
      have hbook := state.cancelOrder_book orderId isBuyOrder
      refine ⟨hordered.aligned.perform (.cancel orderId isBuyOrder), ?_, ?_⟩
      · exact hbook ▸ hordered.buySorted
      · exact hbook ▸ hordered.sellSorted
  | matchOrders =>
      exact matchOrders_invariant Ordered (fun _ _ h hnext => Ordered.matchOnce h hnext) hordered

/-- Every run from a fresh book keeps both trees sorted and aligned. -/
theorem run_ordered (orders : ι → Order α) (ops : List (BookOp ι)) :
    (Transition.run Engine.perform (init orders) ops).Ordered :=
  Transition.run_invariant Engine.perform Ordered (fun _ op h => Ordered.perform op h)
    (init_ordered orders) ops

end Engine

end QuantTrading
