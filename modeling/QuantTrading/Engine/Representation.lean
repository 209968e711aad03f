import QuantTrading.Engine.OrderedBook

/-! # The representation invariant of the book

The nodes of a book copy the keys of orders that change under them, and a filled
order is removed by its key. For orders added at most once, runs keep the trees,
the memory and the quantities in step.
-/

namespace QuantTrading

variable {α ι : Type*}

/-- The orders a list of calls adds, in order. -/
def addedOrders : List (BookOp ι) → List ι
  | [] => []
  | .add order :: rest => order :: addedOrders rest
  | .cancel _ _ :: rest => addedOrders rest
  | .matchOrders :: rest => addedOrders rest

namespace Engine

/-- The orders of all nodes of the book. -/
def storedOrders (state : Engine α ι) : List ι :=
  state.book.buyOrders.orders ++ state.book.sellOrders.orders

theorem mem_storedOrders {state : Engine α ι} {order : ι} :
    order ∈ state.storedOrders ↔
      order ∈ state.book.buyOrders.orders ∨ order ∈ state.book.sellOrders.orders :=
  List.mem_append

theorem mem_storedOrders_iff_side {state : Engine α ι} {order : ι} :
    order ∈ state.storedOrders ↔
      ∃ isBuyOrder, order ∈ (state.book.side isBuyOrder).orders := by
  rw [mem_storedOrders, Bool.exists_bool, or_comm]
  rfl

section Stored

variable [LT α] [DecidableLT α] [BEq α]

theorem mem_storedOrders_of_addOrder {state : Engine α ι} {order other : ι}
    (hother : other ∈ (state.addOrder order).2.storedOrders) :
    other = order ∨ other ∈ state.storedOrders := by
  obtain ⟨isBuyOrder, hside⟩ := mem_storedOrders_iff_side.mp hother
  rw [addOrder_side] at hside
  rw [mem_storedOrders_iff_side]
  split_ifs at hside
  · exact (AVLTree.eq_or_mem_orders_of_insert hside).imp_right fun hold => ⟨isBuyOrder, hold⟩
  · exact Or.inr ⟨isBuyOrder, hside⟩

theorem Traded.mem_storedOrders {state state' : Engine α ι} {buy sell order : ι}
    (htraded : Traded state state' buy sell) (horder : order ∈ state'.storedOrders) :
    order ∈ state.storedOrders := by
  obtain ⟨isBuyOrder, hside⟩ := mem_storedOrders_iff_side.mp horder
  exact mem_storedOrders_iff_side.mpr ⟨isBuyOrder, htraded.mem_side isBuyOrder hside⟩

end Stored

variable [LinearOrder α] [DecidableEq ι]

omit [DecidableEq ι] in
/-- No order occurs in two nodes of an ordered book. -/
theorem Ordered.nodup_storedOrders {state : Engine α ι} (hordered : state.Ordered) :
    state.storedOrders.Nodup := by
  have haligned := hordered.aligned
  refine List.Nodup.append (hordered.buySorted.nodup_orders haligned.buy)
    (hordered.sellSorted.nodup_orders haligned.sell) ?_
  intro order hbuy hsell
  exact haligned.ne_of_sides hbuy hsell rfl

/-- A traded order that is still stored has something left. -/
theorem Traded.remaining_ne_zero {state state' : Engine α ι} {buy sell order : ι}
    (htraded : Traded state state' buy sell) (hordered : state.Ordered)
    (horder : order ∈ state'.storedOrders) (hside : order = buy ∨ order = sell) :
    (state'.orders order).remainingQuantity ≠ 0 := by
  intro hzero
  rcases hside with rfl | rfl <;> rcases Engine.mem_storedOrders.mp horder with hstored | hstored
  · rw [AVLTree.mem_orders, htraded.buyEntries hordered, if_pos hzero] at hstored
    obtain ⟨entry, hentry, horder⟩ := hstored
    exact (of_decide_eq_true (List.mem_filter.mp hentry).2) horder
  · exact hordered.aligned.ne_of_sides htraded.buy_mem (htraded.mem_side false hstored) rfl
  · exact hordered.aligned.ne_of_sides (htraded.mem_side true hstored) htraded.sell_mem rfl
  · rw [AVLTree.mem_orders, htraded.sellEntries hordered, if_pos hzero] at hstored
    obtain ⟨entry, hentry, horder⟩ := hstored
    exact (of_decide_eq_true (List.mem_filter.mp hentry).2) horder

/-- What a run that added the orders `added` guarantees of an ordered book:
orders not added are as created, and a stored order is either unfilled or partly
filled. -/
structure Represented (orders : ι → Order α) (added : List ι) (state : Engine α ι) : Prop where
  ordered : state.Ordered
  sameTerms : SameTerms orders state.orders
  stored : ∀ order ∈ state.storedOrders, order ∈ added
  untouched : ∀ order, order ∉ added →
    (state.orders order).remainingQuantity = (orders order).quantity
  remaining : ∀ order ∈ state.storedOrders,
    (state.orders order).remainingQuantity = (orders order).quantity ∨
      1 ≤ (state.orders order).remainingQuantity ∧
        (state.orders order).remainingQuantity ≤ (orders order).quantity

namespace Represented

variable {orders : ι → Order α} {added : List ι} {state state' : Engine α ι}

omit [DecidableEq ι] in
theorem init (hfresh : ∀ order, (orders order).Fresh) :
    Represented orders [] (Engine.init orders) := by
  refine ⟨init_ordered orders, SameTerms.refl orders, ?_, ?_, ?_⟩
  · intro order horder
    exact horder
  · intro order _
    exact (hfresh order).unfilled
  · intro order horder
    exact absurd horder List.not_mem_nil

theorem addOrder (hrep : Represented orders added state) {order : ι} (hnew : order ∉ added) :
    Represented orders (added ++ [order]) (state.addOrder order).2 := by
  have hsame : (state.addOrder order).2.orders = state.orders := state.addOrder_orders order
  refine ⟨hrep.ordered.perform (.add order), hsame ▸ hrep.sameTerms, ?_, ?_, ?_⟩
  · intro other hother
    rcases mem_storedOrders_of_addOrder hother with rfl | hold
    · simp
    · exact List.mem_append_left _ (hrep.stored other hold)
  · intro other hother
    rw [hsame]
    exact hrep.untouched other fun hadded => hother (List.mem_append_left _ hadded)
  · intro other hother
    rw [hsame]
    rcases mem_storedOrders_of_addOrder hother with rfl | hold
    · exact Or.inl (hrep.untouched other hnew)
    · exact hrep.remaining other hold

theorem cancelOrder (hrep : Represented orders added state) (orderId : CString)
    (isBuyOrder : Bool) :
    Represented orders added (state.cancelOrder orderId isBuyOrder).2 := by
  have hbook := state.cancelOrder_book orderId isBuyOrder
  have hremaining := state.cancelOrder_remaining orderId isBuyOrder
  have hstored : (state.cancelOrder orderId isBuyOrder).2.storedOrders = state.storedOrders := by
    rw [storedOrders, hbook, storedOrders]
  refine ⟨hrep.ordered.perform (.cancel orderId isBuyOrder),
    hrep.sameTerms.trans (state.cancelOrder_sameTerms orderId isBuyOrder), ?_, ?_, ?_⟩
  · rw [hstored]
    exact hrep.stored
  · intro order hnew
    rw [hremaining]
    exact hrep.untouched order hnew
  · intro order horder
    rw [hremaining]
    exact hrep.remaining order (hstored ▸ horder)

theorem matchOnce (hrep : Represented orders added state)
    (hnext : state.matchOnce = some state') : Represented orders added state' := by
  obtain ⟨buy, sell, htraded⟩ := hrep.ordered.aligned.traded hnext
  have hbuyStored : buy ∈ state.storedOrders :=
    mem_storedOrders.mpr (Or.inl htraded.buy_mem)
  have hsellStored : sell ∈ state.storedOrders :=
    mem_storedOrders.mpr (Or.inr htraded.sell_mem)
  refine ⟨htraded.ordered hrep.ordered, hrep.sameTerms.trans htraded.sameTerms, ?_, ?_, ?_⟩
  · intro order horder
    exact hrep.stored order (htraded.mem_storedOrders horder)
  · intro order hnew
    have hnotBuy : order ≠ buy := fun heq => hnew (heq ▸ hrep.stored buy hbuyStored)
    have hnotSell : order ≠ sell := fun heq => hnew (heq ▸ hrep.stored sell hsellStored)
    rw [htraded.others order hnotBuy hnotSell]
    exact hrep.untouched order hnew
  · intro order horder
    have hbefore := hrep.remaining order (htraded.mem_storedOrders horder)
    by_cases hside : order = buy ∨ order = sell
    · have hleft := htraded.remaining_ne_zero hrep.ordered horder hside
      have hle := htraded.remaining_le order
      have hnonneg := htraded.remaining_nonneg hside
      omega
    · rw [htraded.others order (fun h => hside (Or.inl h)) (fun h => hside (Or.inr h))]
      exact hbefore

theorem run (hrep : Represented orders added state) {ops : List (BookOp ι)}
    (hnodup : (added ++ addedOrders ops).Nodup) :
    Represented orders (added ++ addedOrders ops) (Transition.run Engine.perform state ops) := by
  -- over the calls; an order being added is not in `added`, as no order is added twice
  induction ops generalizing state added with
  | nil => simpa [addedOrders] using hrep
  | cons op rest ih =>
      cases op with
      | add order =>
          rw [addedOrders, List.append_cons] at hnodup ⊢
          refine ih (hrep.addOrder fun hadded => ?_) hnodup
          have hdisjoint := (List.nodup_append.mp (List.nodup_append.mp hnodup).1).2.2
          exact hdisjoint order hadded order (by simp) rfl
      | cancel orderId isBuyOrder => exact ih (hrep.cancelOrder orderId isBuyOrder) hnodup
      | matchOrders =>
          have hmatch : Represented orders added state.matchOrders :=
            matchOrders_invariant (Represented orders added) (fun _ _ h hnext => h.matchOnce hnext)
              hrep
          exact ih hmatch hnodup

end Represented

/-- The book is consistent with its memory, for orders created as in `orders`. -/
structure Consistent (orders : ι → Order α) (state : Engine α ι) : Prop where
  buySide : ∀ entry ∈ state.book.buyOrders.entries,
    (state.orders entry.order).isBuyOrder = true
  sellSide : ∀ entry ∈ state.book.sellOrders.entries,
    (state.orders entry.order).isBuyOrder = false
  keys : ∀ entry ∈ state.book.buyOrders.entries ++ state.book.sellOrders.entries,
    entry.price = (state.orders entry.order).price ∧
      entry.timestamp = (state.orders entry.order).timestamp
  nodup : state.storedOrders.Nodup
  positive : ∀ order ∈ state.storedOrders, 0 < (orders order).quantity →
    1 ≤ (state.orders order).remainingQuantity ∧
      (state.orders order).remainingQuantity ≤ (state.orders order).quantity
  nonpositive : ∀ order ∈ state.storedOrders, (orders order).quantity ≤ 0 →
    (state.orders order).remainingQuantity = (state.orders order).quantity

omit [DecidableEq ι] in
theorem Represented.consistent {orders : ι → Order α} {added : List ι} {state : Engine α ι}
    (hrep : Represented orders added state) : Consistent orders state := by
  have haligned := hrep.ordered.aligned
  have hkey : ∀ {isBuyOrder} {tree : AVLTree α ι}, tree.Aligned state.orders isBuyOrder →
      ∀ entry ∈ tree.entries, entry.price = (state.orders entry.order).price ∧
        entry.timestamp = (state.orders entry.order).timestamp := by
    intro isBuyOrder tree htree entry hentry
    have heq := (htree entry hentry).1
    exact ⟨congrArg Entry.price heq, congrArg Entry.timestamp heq⟩
  refine ⟨fun entry hentry => (haligned.buy entry hentry).2,
    fun entry hentry => (haligned.sell entry hentry).2, ?_,
    hrep.ordered.nodup_storedOrders, ?_, ?_⟩
  · intro entry hentry
    rcases List.mem_append.mp hentry with hbuy | hsell
    · exact hkey haligned.buy entry hbuy
    · exact hkey haligned.sell entry hsell
  · intro order horder hpos
    have hremaining := hrep.remaining order horder
    rw [hrep.sameTerms.quantity]
    omega
  · intro order horder hnonpos
    have hremaining := hrep.remaining order horder
    rw [hrep.sameTerms.quantity]
    omega

/-- The representation invariant, for created orders that are added at most once:
every reached state is consistent, and so is every state in which a call of
`order_book_match_orders` makes a match; the match takes the node of an order out
of its tree exactly when it fills the order completely, and no other node. -/
theorem run_representation (orders : ι → Order α) (hfresh : ∀ order, (orders order).Fresh)
    (ops : List (BookOp ι)) (hadds : (addedOrders ops).Nodup) :
    let state := Transition.run Engine.perform (init orders) ops
    Consistent orders state ∧
      ∀ visited ∈ state.matchStates, Consistent orders visited ∧
        ∃ buy sell next, visited.matchingPair = some (buy, sell) ∧
          visited.matchOnce = some next ∧
          next.book.buyOrders.entries =
            (if (next.orders buy).remainingQuantity = 0 then
              visited.book.buyOrders.entries.filter fun entry => entry.order ≠ buy
            else visited.book.buyOrders.entries) ∧
          next.book.sellOrders.entries =
            (if (next.orders sell).remainingQuantity = 0 then
              visited.book.sellOrders.entries.filter fun entry => entry.order ≠ sell
            else visited.book.sellOrders.entries) := by
  intro state
  have hrep : Represented orders (addedOrders ops) state :=
    (Represented.init hfresh).run (by simpa using hadds)
  refine ⟨hrep.consistent, ?_⟩
  intro visited hvisited
  obtain ⟨hvisitedRep, next, hnext⟩ :=
    Transition.loopStates_invariant (Represented orders (addedOrders ops))
      (fun _ _ h hstep => h.matchOnce hstep) _ hrep hvisited
  obtain ⟨buy, sell, htraded⟩ := hvisitedRep.ordered.aligned.traded hnext
  refine ⟨hvisitedRep.consistent, buy, sell, next, ?_, hnext,
    htraded.buyEntries hvisitedRep.ordered, htraded.sellEntries hvisitedRep.ordered⟩
  exact htraded.matchingPair_eq

/-- The offer fills and leaves; the partly filled bid stays. -/
theorem run_representation_partial_fill :
    let state := Transition.run Engine.perform (init crossingOrders)
      [.add 0, .add 1, .matchOrders]
    Consistent crossingOrders state ∧ state.storedOrders = [0] :=
  ⟨(run_representation crossingOrders crossingOrders_fresh [.add 0, .add 1, .matchOrders]
    (by decide)).1, by decide⟩

end Engine

end QuantTrading
