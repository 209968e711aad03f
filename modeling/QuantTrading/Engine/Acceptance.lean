import QuantTrading.Engine.BookRuns

/-! # Accepted orders stay in the book

`order_book_add_order` reports success even when the tree already holds an order
with the same price and timestamp, in which case the new order is dropped. As
long as every added order has a key of its own among the orders then resting on
its side, none is ever lost: only completely filled orders leave a tree. Prices
need an `==` that is symmetric, as that of `double` is, and nothing else.
-/

namespace QuantTrading

variable {α ι : Type*}

/-- Two orders share the key the trees are searched by. -/
def Order.SameKey [BEq α] (first second : Order α) : Prop :=
  (first.price == second.price) = true ∧ first.timestamp = second.timestamp

instance [BEq α] (first second : Order α) : Decidable (first.SameKey second) :=
  inferInstanceAs (Decidable (_ ∧ _))

theorem Order.SameKey.symm [BEq α] [PartialEquivBEq α] {first second : Order α}
    (hsame : first.SameKey second) : second.SameKey first :=
  ⟨BEq.symm hsame.1, hsame.2.symm⟩

/-- Different orders of the tree have different keys. -/
def AVLTree.Apart [BEq α] (orders : ι → Order α) (tree : AVLTree α ι) : Prop :=
  ∀ first ∈ tree.orders, ∀ second ∈ tree.orders, first ≠ second →
    ¬ (orders first).SameKey (orders second)

theorem SameTerms.apart [BEq α] {orders orders' : ι → Order α} (hsame : SameTerms orders orders')
    {tree : AVLTree α ι} (hapart : tree.Apart orders) : tree.Apart orders' := by
  intro first hfirst second hsecond hne hkey
  apply hapart first hfirst second hsecond hne
  rwa [Order.SameKey, hsame.price, hsame.price, hsame.timestamp, hsame.timestamp] at hkey

section Trees

variable [LT α] [DecidableLT α] [BEq α] {orders : ι → Order α} {isBuyOrder : Bool}
  {tree : AVLTree α ι}

namespace AVLTree

/-- An order whose key no other order of the tree has is in the tree after its
insertion. -/
theorem Aligned.mem_insert (haligned : tree.Aligned orders isBuyOrder) {order : ι}
    (hfree : ∀ other ∈ tree.orders, other ≠ order →
      ¬ (orders order).SameKey (orders other)) :
    order ∈ (tree.insert (orders order).price (orders order).timestamp order).orders := by
  rcases tree.insert_entries_cases (orders order).price (orders order).timestamp order with
    ⟨hsame, entry, hentry, hzero⟩ | ⟨first, second, _, hnew⟩
  · have hstored : entry.order ∈ tree.orders := mem_orders.mpr ⟨entry, hentry, rfl⟩
    by_cases heq : entry.order = order
    · rw [← heq] at hsame ⊢
      rwa [AVLTree.orders, hsame]
    · have hkey := (haligned entry hentry).1
      rw [hkey] at hzero
      exact absurd (AVLNode.compareNodes_eq_zero_iff.mp hzero) (hfree _ hstored heq)
  · refine mem_orders.mpr ⟨⟨(orders order).price, (orders order).timestamp, order⟩, ?_, rfl⟩
    simp [hnew]

/-- An order with a key of its own adds one node. -/
theorem Aligned.length_insert (haligned : tree.Aligned orders isBuyOrder) {order : ι}
    (hfree : ∀ other ∈ tree.orders, ¬ (orders order).SameKey (orders other)) :
    (tree.insert (orders order).price (orders order).timestamp order).orders.length =
      tree.orders.length + 1 := by
  rcases tree.insert_entries_cases (orders order).price (orders order).timestamp order with
    ⟨_, entry, hentry, hzero⟩ | ⟨first, second, hold, hnew⟩
  · rw [(haligned entry hentry).1] at hzero
    exact absurd (AVLNode.compareNodes_eq_zero_iff.mp hzero)
      (hfree _ (mem_orders.mpr ⟨entry, hentry, rfl⟩))
  · simp only [AVLTree.orders, hold, hnew, List.length_map, List.length_append, List.length_cons]
    omega

theorem Apart.insert [PartialEquivBEq α] (hapart : tree.Apart orders) {order : ι}
    (hfree : ∀ other ∈ tree.orders, other ≠ order →
      ¬ (orders order).SameKey (orders other)) (price : α) (timestamp : Int) :
    (tree.insert price timestamp order).Apart orders := by
  intro first hfirst second hsecond hne hkey
  rcases eq_or_mem_orders_of_insert hfirst with rfl | hfirstOld <;>
    rcases eq_or_mem_orders_of_insert hsecond with rfl | hsecondOld
  · exact hne rfl
  · exact hfree second hsecondOld hne.symm hkey
  · exact hfree first hfirstOld hne hkey.symm
  · exact hapart first hfirstOld second hsecondOld hne hkey

theorem Apart.deleteOrder (hapart : tree.Apart orders) (price : α) (timestamp : Int) :
    (tree.deleteOrder price timestamp).Apart orders :=
  fun first hfirst second hsecond => hapart first (mem_orders_of_mem_deleteOrder hfirst)
    second (mem_orders_of_mem_deleteOrder hsecond)

/-- Deleting the key of one stored order keeps every other stored order. -/
theorem Apart.mem_deleteOrder (hapart : tree.Apart orders)
    (haligned : tree.Aligned orders isBuyOrder) {filled other : ι} (hfilled : filled ∈ tree.orders)
    (hother : other ∈ tree.orders) (hne : other ≠ filled) :
    other ∈ (tree.deleteOrder (orders filled).price (orders filled).timestamp).orders := by
  obtain ⟨entry, hentry, rfl⟩ := mem_orders.mp hother
  have happart : ∀ {order : ι} {second : Entry α ι}, order ∈ tree.orders →
      second ∈ tree.entries → order ≠ second.order →
      AVLNode.compareNodes (orders order).price (orders order).timestamp second.price
        second.timestamp tree.isBuyTree ≠ 0 := by
    intro order second horder hsecond hdiff hzero
    rw [(haligned second hsecond).1] at hzero
    exact hapart order horder second.order (mem_orders.mpr ⟨second, hsecond, rfl⟩) hdiff
      (AVLNode.compareNodes_eq_zero_iff.mp hzero)
  obtain ⟨kept, hkept, horder⟩ := AVLNode.exists_mem_deleteNode
    (tree.deleteNode_eq_some (orders filled).price (orders filled).timestamp)
    (fun first hfirst second hsecond hdiff => by
      rw [(haligned first hfirst).1]
      exact happart (mem_orders.mpr ⟨first, hfirst, rfl⟩) hsecond hdiff)
    hentry (fun second hsecond heq => happart hfilled hsecond fun h => hne (h.trans heq).symm)
  exact mem_orders.mpr ⟨kept, hkept, horder⟩

end AVLTree

end Trees

namespace Engine

variable [LT α] [DecidableLT α] [BEq α]

/-- An added order shares its key with no other order resting on its side. -/
def KeyFree (state : Engine α ι) : BookOp ι → Prop
  | .add order =>
      ∀ other ∈ (state.book.side (state.orders order).isBuyOrder).orders, other ≠ order →
        ¬ (state.orders order).SameKey (state.orders other)
  | .cancel _ _ => True
  | .matchOrders => True

instance [DecidableEq ι] (state : Engine α ι) : ∀ op, Decidable (state.KeyFree op)
  | .add _ => inferInstanceAs (Decidable (∀ _ ∈ _, _ → ¬ _))
  | .cancel _ _ => .isTrue trivial
  | .matchOrders => .isTrue trivial

/-- Every accepted order with something left to trade is in the tree of its side. -/
structure Keeps (accepted : ι → Prop) (state : Engine α ι) : Prop where
  aligned : state.Aligned
  buyApart : state.book.buyOrders.Apart state.orders
  sellApart : state.book.sellOrders.Apart state.orders
  stored : ∀ order, accepted order → 0 < (state.orders order).remainingQuantity →
    order ∈ (state.book.side (state.orders order).isBuyOrder).orders

theorem Aligned.length_addOrder {state : Engine α ι} (haligned : state.Aligned) (order : ι)
    (hfree : ∀ other ∈ (state.book.side (state.orders order).isBuyOrder).orders,
      ¬ (state.orders order).SameKey (state.orders other)) :
    (state.addOrder order).2.book.buyOrders.orders.length +
        (state.addOrder order).2.book.sellOrders.orders.length =
      state.book.buyOrders.orders.length + state.book.sellOrders.orders.length + 1 := by
  rw [addOrder_eq]
  cases hside : (state.orders order).isBuyOrder with
  | true =>
      simp only [hside, OrderBook.side, if_true] at hfree ⊢
      rw [haligned.buy.length_insert hfree]
      omega
  | false =>
      simp only [hside, OrderBook.side, Bool.false_eq_true, if_false] at hfree ⊢
      rw [haligned.sell.length_insert hfree]
      omega

variable [DecidableEq ι]

omit [LT α] [DecidableLT α] [DecidableEq ι] in
theorem Keeps.apart {accepted : ι → Prop} {state : Engine α ι} (hkeeps : Keeps accepted state)
    (isBuyOrder : Bool) : (state.book.side isBuyOrder).Apart state.orders := by
  cases isBuyOrder with
  | true => exact hkeeps.buyApart
  | false => exact hkeeps.sellApart

theorem Keeps.addOrder [PartialEquivBEq α] {accepted : ι → Prop} {state : Engine α ι}
    (hkeeps : Keeps accepted state) {order : ι} (hfree : state.KeyFree (.add order)) :
    Keeps (fun other => other = order ∨ accepted other) (state.addOrder order).2 := by
  have hapart : ∀ isBuyOrder, ((state.addOrder order).2.book.side isBuyOrder).Apart
      (state.addOrder order).2.orders := by
    intro isBuyOrder
    rw [addOrder_orders, addOrder_side]
    split_ifs with hside
    · subst hside
      exact (hkeeps.apart _).insert hfree _ _
    · exact hkeeps.apart isBuyOrder
  refine ⟨hkeeps.aligned.perform (.add order), hapart true, hapart false, ?_⟩
  intro other haccepted hpos
  rw [addOrder_orders] at hpos ⊢
  rw [addOrder_side]
  rcases haccepted with rfl | haccepted
  · rw [if_pos rfl]
    exact (hkeeps.aligned.side _).mem_insert hfree
  · have hstored := hkeeps.stored other haccepted hpos
    split_ifs
    · exact AVLTree.mem_orders_insert_of_mem hstored
    · exact hstored

theorem Keeps.cancelOrder {accepted : ι → Prop} {state : Engine α ι}
    (hkeeps : Keeps accepted state) (orderId : CString) (isBuyOrder : Bool) :
    Keeps accepted (state.cancelOrder orderId isBuyOrder).2 := by
  have haligned := hkeeps.aligned.perform (.cancel orderId isBuyOrder)
  have hsame := state.cancelOrder_sameTerms orderId isBuyOrder
  have hbook := state.cancelOrder_book orderId isBuyOrder
  have hremaining : ∀ order, ((state.cancelOrder orderId isBuyOrder).2.orders
      order).remainingQuantity = (state.orders order).remainingQuantity :=
    state.cancelOrder_remaining orderId isBuyOrder
  refine ⟨haligned, hbook ▸ hsame.apart hkeeps.buyApart, hbook ▸ hsame.apart hkeeps.sellApart, ?_⟩
  intro order haccepted hpos
  rw [hbook, hsame.isBuyOrder]
  exact hkeeps.stored order haccepted (hremaining order ▸ hpos)

/-- An iteration of the matching loop removes completely filled orders only. -/
theorem Keeps.matchOnce {accepted : ι → Prop} {state state' : Engine α ι}
    (hkeeps : Keeps accepted state) (hnext : state.matchOnce = some state') :
    Keeps accepted state' := by
  obtain ⟨buy, sell, htraded⟩ := hkeeps.aligned.traded hnext
  have hsame := htraded.sameTerms
  have hapart : ∀ isBuyOrder, (state'.book.side isBuyOrder).Apart state'.orders := by
    intro isBuyOrder
    apply hsame.apart
    obtain ⟨_, _, htree⟩ := htraded.side isBuyOrder
    rw [htree]
    split_ifs
    · exact (hkeeps.apart isBuyOrder).deleteOrder _ _
    · exact hkeeps.apart isBuyOrder
  refine ⟨htraded.aligned hkeeps.aligned, hapart true, hapart false, ?_⟩
  intro order haccepted hpos
  have hstored := hkeeps.stored order haccepted (hpos.trans_le (htraded.remaining_le order))
  rw [hsame.isBuyOrder]
  obtain ⟨filled, hfilled, htree⟩ := htraded.side (state.orders order).isBuyOrder
  rw [htree]
  split_ifs with hzero
  · -- the deleted key is that of a filled order, and this one is not filled
    apply (hkeeps.apart _).mem_deleteOrder (hkeeps.aligned.side _) hfilled hstored
    rintro rfl
    exact hpos.ne' hzero
  · exact hstored

theorem Keeps.run [PartialEquivBEq α] {accepted : ι → Prop} {state : Engine α ι}
    (hkeeps : Keeps accepted state) {ops : List (BookOp ι)}
    (halong : Transition.Along Engine.perform KeyFree state ops) :
    Keeps (fun order => .add order ∈ ops ∨ accepted order)
      (Transition.run Engine.perform state ops) := by
  -- over the calls; `accepted` grows with every addition
  induction ops generalizing state accepted with
  | nil => simpa using hkeeps
  | cons op rest ih =>
      obtain ⟨hfree, hrest⟩ := halong
      cases op with
      | add order =>
          have hrun := ih (hkeeps.addOrder hfree) hrest
          refine { hrun with stored := fun other haccepted => hrun.stored other ?_ }
          simpa [or_assoc, or_left_comm] using haccepted
      | cancel orderId isBuyOrder =>
          have hrun := ih (hkeeps.cancelOrder orderId isBuyOrder) hrest
          refine { hrun with stored := fun other haccepted => hrun.stored other ?_ }
          simpa using haccepted
      | matchOrders =>
          have hmatch : Keeps accepted state.matchOrders :=
            matchOrders_invariant (Keeps accepted) (fun _ _ h hnext => h.matchOnce hnext) hkeeps
          have hrun := ih hmatch hrest
          refine { hrun with stored := fun other haccepted => hrun.stored other ?_ }
          simpa using haccepted

omit [DecidableEq ι] [DecidableLT α] [LT α] in
theorem init_keeps (orders : ι → Order α) : Keeps (fun _ => False) (init orders) :=
  ⟨init_aligned orders, fun _ hfirst => absurd hfirst List.not_mem_nil,
    fun _ hfirst => absurd hfirst List.not_mem_nil, fun _ haccepted => haccepted.elim⟩

end Engine

end QuantTrading
