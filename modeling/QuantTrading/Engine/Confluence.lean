import QuantTrading.Engine.Ladder

/-! # Matching does not depend on the insertion order

Adding orders in different orders builds trees of different shapes. When the keys
of each side are pairwise distinct all of them stand for the same two lists, and
matching depends on nothing else.
-/

namespace QuantTrading

open KeyedList

variable {α ι : Type*} [LinearOrder α]

/-- Different orders of the same side have different keys. -/
def DistinctKeys (orders : ι → Order α) (list : List ι) : Prop :=
  ∀ first ∈ list, ∀ second ∈ list, first ≠ second →
    (orders first).isBuyOrder = (orders second).isBuyOrder →
      (orders first).key ≠ (orders second).key

instance (orders : ι → Order α) [DecidableEq ι] (list : List ι) :
    Decidable (DistinctKeys orders list) :=
  inferInstanceAs (Decidable (∀ _ ∈ _, ∀ _ ∈ _, _ → _ → _))

omit [LinearOrder α] in
theorem DistinctKeys.subset {orders : ι → Order α} {list list' : List ι}
    (hdistinct : DistinctKeys orders list) (hsubset : list' ⊆ list) : DistinctKeys orders list' :=
  fun first hfirst second hsecond => hdistinct first (hsubset hfirst) second (hsubset hsecond)

namespace Engine

/-- The engine holds exactly the orders of the list. -/
structure Filled (orders : ι → Order α) (list : List ι) (state : Engine α ι) : Prop where
  ordered : state.Ordered
  memory : state.orders = orders
  untraded : state.trades = []
  stored : ∀ isBuyOrder order, order ∈ (state.book.side isBuyOrder).orders ↔
    order ∈ list ∧ (orders order).isBuyOrder = isBuyOrder

/-- Adding an order whose key is free stores that order beside the others. -/
theorem Filled.addOrder [DecidableEq ι] {orders : ι → Order α} {list : List ι}
    {state : Engine α ι} (hfilled : Filled orders list state) {order : ι}
    (hdistinct : DistinctKeys orders (list ++ [order])) :
    Filled orders (list ++ [order]) (state.addOrder order).2 := by
  refine ⟨hfilled.ordered.perform (.add order), ?_, ?_, ?_⟩
  · rw [addOrder_orders, hfilled.memory]
  · rw [addOrder_eq]
    exact hfilled.untraded
  · intro isBuyOrder other
    have haligned := hfilled.ordered.aligned.side isBuyOrder
    have hsorted := hfilled.ordered.side_sorted isBuyOrder
    rw [addOrder_side, hfilled.memory, List.mem_append, List.mem_singleton]
    rw [hfilled.memory] at haligned
    split_ifs with hside
    · constructor
      · intro hother
        rcases AVLTree.eq_or_mem_orders_of_insert hother with rfl | hold
        · exact ⟨Or.inr rfl, hside⟩
        · exact ((hfilled.stored isBuyOrder other).mp hold).imp_left Or.inl
      · rintro ⟨hlist | rfl, hother⟩
        · exact AVLTree.mem_orders_insert_of_mem
            ((hfilled.stored isBuyOrder other).mpr ⟨hlist, hother⟩)
        · by_cases hold : other ∈ (state.book.side isBuyOrder).orders
          · exact AVLTree.mem_orders_insert_of_mem hold
          · -- the key is free, so the entry of the order is inserted
            have hnew : ∀ entry ∈ (state.book.side isBuyOrder).entries,
                entry.key ≠ (Entry.of orders other).key := by
              intro entry hentry hkey
              have hstored : entry.order ∈ (state.book.side isBuyOrder).orders :=
                AVLTree.mem_orders.mpr ⟨entry, hentry, rfl⟩
              obtain ⟨hmem, hentrySide⟩ := (hfilled.stored isBuyOrder entry.order).mp hstored
              rw [(haligned entry hentry).1] at hkey
              refine hdistinct entry.order (by simp [hmem]) other (by simp) ?_
                (hentrySide.trans hother.symm) hkey
              rintro rfl
              exact hold hstored
            refine AVLTree.mem_orders.mpr ⟨Entry.of orders other, ?_, rfl⟩
            rw [AVLTree.insert_entries hsorted]
            exact self_mem_insertKey hnew
    · rw [hfilled.stored]
      constructor
      · exact fun h => h.imp_left Or.inl
      · rintro ⟨hlist | rfl, hother⟩
        · exact ⟨hlist, hother⟩
        · exact absurd hother hside

/-- A book into which orders with distinct keys have been added. -/
theorem run_add_filled [DecidableEq ι] (orders : ι → Order α) (list : List ι)
    (hdistinct : DistinctKeys orders list) :
    Filled orders list (Transition.run Engine.perform (init orders) (list.map .add)) := by
  induction list using List.reverseRecOn with
  | nil =>
      refine ⟨init_ordered orders, rfl, rfl, ?_⟩
      rintro (_ | _) order <;>
        simp [init, OrderBook.empty, OrderBook.side, AVLTree.orders]
  | append_singleton list order ih =>
      have hfirst : DistinctKeys orders list := hdistinct.subset (List.subset_append_left _ _)
      rw [List.map_append, Transition.run_append]
      exact (ih hfirst).addOrder hdistinct

/-- The lists of a filled book are determined by the orders in it. -/
theorem Filled.side_orders_eq {orders : ι → Order α} {list₁ list₂ : List ι}
    {state₁ state₂ : Engine α ι} (hfilled₁ : Filled orders list₁ state₁)
    (hfilled₂ : Filled orders list₂ state₂) (hperm : list₁.Perm list₂) (isBuyOrder : Bool) :
    (state₁.book.side isBuyOrder).orders = (state₂.book.side isBuyOrder).orders := by
  have hasc₁ := (hfilled₁.ordered.side_sorted isBuyOrder).ascending_orders
    (hfilled₁.ordered.aligned.side isBuyOrder)
  have hasc₂ := (hfilled₂.ordered.side_sorted isBuyOrder).ascending_orders
    (hfilled₂.ordered.aligned.side isBuyOrder)
  rw [hfilled₁.memory] at hasc₁
  rw [hfilled₂.memory] at hasc₂
  apply hasc₁.eq_of_mem_iff hasc₂
  intro order
  rw [hfilled₁.stored, hfilled₂.stored, hperm.mem_iff]

theorem Filled.ladder_eq {orders : ι → Order α} {list₁ list₂ : List ι} {state₁ state₂ : Engine α ι}
    (hfilled₁ : Filled orders list₁ state₁) (hfilled₂ : Filled orders list₂ state₂)
    (hperm : list₁.Perm list₂) : state₁.ladder = state₂.ladder := by
  have hbuy : state₁.book.buyOrders.orders = state₂.book.buyOrders.orders :=
    hfilled₁.side_orders_eq hfilled₂ hperm true
  have hsell : state₁.book.sellOrders.orders = state₂.book.sellOrders.orders :=
    hfilled₁.side_orders_eq hfilled₂ hperm false
  rw [ladder, ladder, hfilled₁.memory, hfilled₂.memory, hbuy, hsell, hfilled₁.untraded,
    hfilled₂.untraded]

/-- Adding orders with distinct keys per side in any two orders, and then matching,
leads to the same trades, the same orders in memory and the same entries in both
trees. -/
theorem matchOrders_insertion_order_irrelevant [DecidableEq ι] (orders : ι → Order α)
    (list₁ list₂ : List ι) (hdistinct : DistinctKeys orders list₁) (hperm : list₁.Perm list₂) :
    let state₁ := (Transition.run Engine.perform (init orders) (list₁.map .add)).matchOrders
    let state₂ := (Transition.run Engine.perform (init orders) (list₂.map .add)).matchOrders
    state₁.trades = state₂.trades ∧ state₁.orders = state₂.orders ∧
      state₁.book.buyOrders.entries = state₂.book.buyOrders.entries ∧
      state₁.book.sellOrders.entries = state₂.book.sellOrders.entries := by
  intro state₁ state₂
  have hdistinct₂ : DistinctKeys orders list₂ := hdistinct.subset hperm.symm.subset
  have hfilled₁ := run_add_filled orders list₁ hdistinct
  have hfilled₂ := run_add_filled orders list₂ hdistinct₂
  have hladder : state₁.ladder = state₂.ladder := by
    rw [hfilled₁.ordered.ladder_matchOrders, hfilled₂.ordered.ladder_matchOrders,
      hfilled₁.ladder_eq hfilled₂ hperm]
  have haligned₁ : state₁.Aligned := hfilled₁.ordered.aligned.perform .matchOrders
  have haligned₂ : state₂.Aligned := hfilled₂.ordered.aligned.perform .matchOrders
  have horders : state₁.orders = state₂.orders := congrArg Ladder.orders hladder
  refine ⟨congrArg Ladder.trades hladder, horders, ?_, ?_⟩
  · rw [haligned₁.buy.entries_eq, haligned₂.buy.entries_eq, horders,
      List.reverse_injective (congrArg Ladder.bids hladder)]
  · rw [haligned₁.sell.entries_eq, haligned₂.sell.entries_eq, horders]
    exact congrArg (List.map _) (congrArg Ladder.asks hladder)

/-- Three bids and an offer that fills two of them. -/
def fourOrders : Nat → Order Int
  | 0 => Order.sample "A" 10 5 true 1
  | 1 => Order.sample "B" 11 5 true 1
  | 2 => Order.sample "C" 10 5 true 2
  | _ => Order.sample "S" 10 10 false 3

/-- Two insertion orders that build differently shaped buy trees. -/
theorem matchOrders_insertion_order_irrelevant_fourOrders :
    (Transition.run Engine.perform (init fourOrders)
        (([0, 1, 2, 3] : List Nat).map .add)).matchOrders.trades =
      (Transition.run Engine.perform (init fourOrders)
        (([3, 2, 0, 1] : List Nat).map .add)).matchOrders.trades :=
  (matchOrders_insertion_order_irrelevant fourOrders [0, 1, 2, 3] [3, 2, 0, 1] (by decide)
    (by decide)).1

end Engine

end QuantTrading
