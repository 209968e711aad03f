import QuantTrading.Engine.BookSteps

/-! # Runs of the order book

What the calls on a book do, stated once each, and what holds of every run from a
fresh book for prices compared in any way: the book stays aligned and no order
changes its terms.
-/

namespace QuantTrading

variable {α ι : Type*} [LT α] [DecidableLT α] [BEq α] [DecidableEq ι]

namespace Engine

omit [DecidableEq ι] in
/-- Adding an order inserts its entry into the tree of its side. -/
theorem addOrder_eq (state : Engine α ι) (order : ι) :
    state.addOrder order = (0, { state with
      book :=
        { buyOrders := if (state.orders order).isBuyOrder then
            state.book.buyOrders.insert (state.orders order).price
              (state.orders order).timestamp order
          else state.book.buyOrders
          sellOrders := if (state.orders order).isBuyOrder then state.book.sellOrders
          else state.book.sellOrders.insert (state.orders order).price
            (state.orders order).timestamp order } }) := by
  unfold addOrder
  dsimp only
  split_ifs <;> rfl

omit [DecidableEq ι] in
theorem addOrder_orders (state : Engine α ι) (order : ι) :
    (state.addOrder order).2.orders = state.orders := by
  rw [addOrder_eq]

omit [DecidableEq ι] in
theorem addOrder_side (state : Engine α ι) (order : ι) (isBuyOrder : Bool) :
    (state.addOrder order).2.book.side isBuyOrder =
      if (state.orders order).isBuyOrder = isBuyOrder then
        (state.book.side isBuyOrder).insert (state.orders order).price
          (state.orders order).timestamp order
      else state.book.side isBuyOrder := by
  rw [addOrder_eq]
  cases hside : (state.orders order).isBuyOrder <;> cases isBuyOrder <;>
    simp [OrderBook.side]

/-- Cancelling marks one order of the searched tree, or changes nothing. -/
theorem cancelOrder_cases (state : Engine α ι) (orderId : CString) (isBuyOrder : Bool) :
    (∃ order, searchById state.orders orderId isBuyOrder
        (state.book.side isBuyOrder).root = some order ∧
      state.cancelOrder orderId isBuyOrder = (0, { state with
        orders := Function.update state.orders order
          { state.orders order with isCanceled := true } })) ∨
    (searchById state.orders orderId isBuyOrder (state.book.side isBuyOrder).root = none ∧
      state.cancelOrder orderId isBuyOrder = (-1, state)) := by
  unfold cancelOrder
  cases hsearch : searchById state.orders orderId isBuyOrder
      (state.book.side isBuyOrder).root with
  | none => exact Or.inr ⟨rfl, rfl⟩
  | some order => exact Or.inl ⟨order, rfl, by simp only [Order.cancel_eq]⟩

theorem cancelOrder_sameTerms (state : Engine α ι) (orderId : CString) (isBuyOrder : Bool) :
    SameTerms state.orders (state.cancelOrder orderId isBuyOrder).2.orders := by
  rcases state.cancelOrder_cases orderId isBuyOrder with ⟨order, _, heq⟩ | ⟨_, heq⟩ <;> rw [heq]
  · exact (SameTerms.refl state.orders).update rfl
  · exact SameTerms.refl state.orders

theorem cancelOrder_remaining (state : Engine α ι) (orderId : CString) (isBuyOrder : Bool)
    (order : ι) :
    ((state.cancelOrder orderId isBuyOrder).2.orders order).remainingQuantity =
      (state.orders order).remainingQuantity := by
  rcases state.cancelOrder_cases orderId isBuyOrder with ⟨found, _, heq⟩ | ⟨_, heq⟩ <;> rw [heq]
  by_cases hsame : order = found
  · subst hsame
    simp
  · simp [Function.update_of_ne hsame]

theorem cancelOrder_book (state : Engine α ι) (orderId : CString) (isBuyOrder : Bool) :
    (state.cancelOrder orderId isBuyOrder).2.book = state.book := by
  rcases state.cancelOrder_cases orderId isBuyOrder with ⟨order, _, heq⟩ | ⟨_, heq⟩ <;> rw [heq]

theorem cancelOrder_trades (state : Engine α ι) (orderId : CString) (isBuyOrder : Bool) :
    (state.cancelOrder orderId isBuyOrder).2.trades = state.trades := by
  rcases state.cancelOrder_cases orderId isBuyOrder with ⟨order, _, heq⟩ | ⟨_, heq⟩ <;> rw [heq]

theorem cancelOrder_keeps_canceled (state : Engine α ι) (orderId : CString) (isBuyOrder : Bool)
    {order : ι} (hcanceled : (state.orders order).isCanceled = true) :
    ((state.cancelOrder orderId isBuyOrder).2.orders order).isCanceled = true := by
  rcases state.cancelOrder_cases orderId isBuyOrder with ⟨found, _, heq⟩ | ⟨_, heq⟩ <;> rw [heq]
  · by_cases hsame : order = found
    · simp [hsame]
    · simpa [Function.update_of_ne hsame] using hcanceled
  · exact hcanceled

theorem Aligned.perform {state : Engine α ι} (op : BookOp ι) (haligned : state.Aligned) :
    (state.perform op).Aligned := by
  cases op with
  | add order =>
      have hside : ∀ isBuyOrder, ((state.addOrder order).2.book.side isBuyOrder).Aligned
          (state.addOrder order).2.orders isBuyOrder := by
        intro isBuyOrder
        rw [addOrder_orders, addOrder_side]
        split_ifs with horder
        · exact (haligned.side isBuyOrder).insert horder
        · exact haligned.side isBuyOrder
      exact ⟨hside true, hside false⟩
  | cancel orderId isBuyOrder =>
      have hsame := state.cancelOrder_sameTerms orderId isBuyOrder
      have hbook := state.cancelOrder_book orderId isBuyOrder
      exact ⟨hsame.aligned (hbook ▸ haligned.buy), hsame.aligned (hbook ▸ haligned.sell)⟩
  | matchOrders =>
      exact matchOrders_invariant Aligned (fun _ _ h hnext => Aligned.matchOnce h hnext) haligned

omit [LT α] [DecidableLT α] [BEq α] [DecidableEq ι] in
theorem init_aligned (orders : ι → Order α) : (init orders).Aligned :=
  ⟨fun _ hentry => absurd hentry List.not_mem_nil,
    fun _ hentry => absurd hentry List.not_mem_nil⟩

/-- Every run from a fresh book is aligned. -/
theorem run_aligned (orders : ι → Order α) (ops : List (BookOp ι)) :
    (Transition.run Engine.perform (init orders) ops).Aligned :=
  Transition.run_invariant Engine.perform Aligned (fun _ op h => Aligned.perform op h)
    (init_aligned orders) ops

/-- No call changes the terms of an order. -/
theorem perform_sameTerms {state : Engine α ι} (haligned : state.Aligned) (op : BookOp ι) :
    SameTerms state.orders (state.perform op).orders := by
  cases op with
  | add order =>
      rw [Engine.perform, addOrder_eq]
      exact SameTerms.refl state.orders
  | cancel orderId isBuyOrder => exact state.cancelOrder_sameTerms orderId isBuyOrder
  | matchOrders =>
      refine (matchOrders_invariant
        (fun current => current.Aligned ∧ SameTerms state.orders current.orders) ?_
        ⟨haligned, SameTerms.refl state.orders⟩).2
      rintro current next ⟨hcurrent, hsame⟩ hnext
      obtain ⟨buy, sell, htraded⟩ := hcurrent.traded hnext
      exact ⟨htraded.aligned hcurrent, hsame.trans htraded.sameTerms⟩

theorem run_sameTerms (orders : ι → Order α) (ops : List (BookOp ι)) :
    SameTerms orders (Transition.run Engine.perform (init orders) ops).orders :=
  (Transition.run_invariant Engine.perform
    (fun state => state.Aligned ∧ SameTerms orders state.orders)
    (fun _ op h => ⟨Aligned.perform op h.1, h.2.trans (perform_sameTerms h.1 op)⟩)
    ⟨init_aligned orders, SameTerms.refl orders⟩ ops).2

/-! ## Two orders for concrete runs -/

/-- A bid and an offer below it. -/
def crossingOrders : Nat → Order Int
  | 0 => Order.sample "B" 10 5 true 1
  | _ => Order.sample "S" 9 3 false 2

theorem crossingOrders_fresh (order : Nat) : (crossingOrders order).Fresh := by
  cases order with
  | zero => exact Order.sample_fresh ..
  | succ order => exact Order.sample_fresh ..

end Engine

end QuantTrading
