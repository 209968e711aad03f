import QuantTrading.Engine.Fills

/-! # Modifying orders

`order_set_price` and `order_set_quantity` write into an order, whether or not it rests
in a book. The tree of a resting order keeps the price with which the order was added,
and the trades made so far stay in the ledger. So a book stays consistent as long as the
price of a resting order is not changed and the quantity of an order is set only before
its first trade.
-/

namespace QuantTrading

variable {α ι : Type*}

/-- `order_set_price`. -/
def Order.setPrice [LE α] [DecidableLE α] [Zero α] (order : Order α) (newPrice : α) : Order α :=
  if newPrice ≤ 0 then order else { order with price := newPrice }

/-- `order_set_quantity`: the return code and the order afterwards. -/
def Order.setQuantity (order : Order α) (newQuantity : Int) : Int × Order α :=
  if newQuantity < 0 then (-1, order)
  else (0, { order with quantity := newQuantity, remainingQuantity := newQuantity })

/-- A call on the book, or a modification of an order. -/
inductive ModifyOp (α ι : Type*) where
  | book (op : BookOp ι) : ModifyOp α ι
  | setPrice (order : ι) (newPrice : α) : ModifyOp α ι
  | setQuantity (order : ι) (newQuantity : Int) : ModifyOp α ι
deriving DecidableEq, Repr

namespace Engine

variable [LinearOrder α] [Zero α] [DecidableEq ι]

/-- Perform a call or a modification. -/
def modify (state : Engine α ι) : ModifyOp α ι → Engine α ι
  | .book op => state.perform op
  | .setPrice order newPrice =>
      { state with
        orders := Function.update state.orders order ((state.orders order).setPrice newPrice) }
  | .setQuantity order newQuantity =>
      { state with
        orders := Function.update state.orders order
          ((state.orders order).setQuantity newQuantity).2 }

/-- The trades that a call of `order_book_match_orders` would make now. -/
def matchTrades (state : Engine α ι) : List (TradeEvent α ι) :=
  state.matchOrders.trades.drop state.trades.length

/-- The trees are ordered by the current keys of their orders, matching removes the orders
it fills completely, and what is gone of an order is what its trades say. -/
structure Coherent (state : Engine α ι) : Prop where
  ordered : ∀ isBuyOrder, KeyedList.Ascending (fun order => (state.orders order).key)
    (state.book.side isBuyOrder).orders
  removed : ∀ event ∈ state.matchTrades, ∀ order, event.Names order →
    (state.matchOrders.orders order).remainingQuantity = 0 →
      order ∉ state.matchOrders.storedOrders
  ledger : ∀ order, (state.orders order).quantity - (state.orders order).remainingQuantity =
    tradedQuantity state.trades order

/-- The price of a resting order does not change, and the quantity of an order is set only
before its first trade. -/
def Untouched (state : Engine α ι) : ModifyOp α ι → Prop
  | .book _ => True
  | .setPrice order newPrice =>
      order ∈ state.storedOrders → newPrice ≤ 0 ∨ newPrice = (state.orders order).price
  | .setQuantity order newQuantity =>
      newQuantity < 0 ∨ ∀ event ∈ state.trades, ¬ event.Names order

/-- What holds in the states of a run of such calls. -/
structure Modified (state : Engine α ι) : Prop where
  ordered : state.Ordered
  ledger : ∀ order, (state.orders order).quantity =
    tradedQuantity state.trades order + (state.orders order).remainingQuantity

omit [Zero α] [DecidableEq ι] in
/-- The trees stay ordered when the keys and the sides of their orders do not change. -/
theorem Ordered.congr_entry {state : Engine α ι} (hordered : state.Ordered)
    {orders : ι → Order α}
    (hsame : ∀ order ∈ state.storedOrders, Entry.of orders order = Entry.of state.orders order ∧
      (orders order).isBuyOrder = (state.orders order).isBuyOrder) :
    Ordered { state with orders := orders } where
  aligned :=
    { buy := hordered.aligned.buy.congr_entry fun order horder =>
        hsame order (mem_storedOrders.mpr (Or.inl horder))
      sell := hordered.aligned.sell.congr_entry fun order horder =>
        hsame order (mem_storedOrders.mpr (Or.inr horder)) }
  buySorted := hordered.buySorted
  sellSorted := hordered.sellSorted

namespace Modified

variable {state : Engine α ι}

omit [Zero α] in
theorem init {orders : ι → Order α} (hfresh : ∀ order, (orders order).Fresh) :
    (Engine.init orders).Modified where
  ordered := init_ordered orders
  ledger := fun order => by
    rw [(show tradedQuantity (Engine.init orders).trades order = 0 from rfl), zero_add]
    exact (hfresh order).unfilled.symm

omit [Zero α] in
/-- A call on the book. -/
theorem perform (hmodified : state.Modified) (op : BookOp ι) : (state.perform op).Modified := by
  refine ⟨hmodified.ordered.perform op, fun order => ?_⟩
  have hledger := hmodified.ledger order
  have hterms := (perform_sameTerms hmodified.ordered.aligned op).quantity order
  cases op with
  | add added =>
      have horders : (state.perform (.add added)).orders = state.orders :=
        state.addOrder_orders added
      have htrades : (state.perform (.add added)).trades = state.trades := by
        change (state.addOrder added).2.trades = _
        rw [addOrder_eq]
      rw [horders, htrades]
      exact hledger
  | cancel orderId isBuyOrder =>
      have htrades : (state.perform (.cancel orderId isBuyOrder)).trades = state.trades :=
        state.cancelOrder_trades orderId isBuyOrder
      have hremaining := state.cancelOrder_remaining orderId isBuyOrder order
      rw [hterms, htrades, hledger, ← hremaining]
      rfl
  | matchOrders =>
      have hbalance := hmodified.ordered.matched.balance order
      rw [hterms, hledger, ← hbalance]
      rfl

/-- Setting a price that does not change, or of an order that does not rest. -/
theorem setPrice (hmodified : state.Modified) {order : ι} {newPrice : α}
    (huntouched : state.Untouched (.setPrice order newPrice)) :
    (state.modify (.setPrice order newPrice)).Modified := by
  have hfields : ∀ other,
      let record := Function.update state.orders order
        ((state.orders order).setPrice newPrice) other
      record.quantity = (state.orders other).quantity ∧
        record.remainingQuantity = (state.orders other).remainingQuantity ∧
        record.timestamp = (state.orders other).timestamp ∧
        record.isBuyOrder = (state.orders other).isBuyOrder := by
    intro other
    by_cases hother : other = order
    · subst hother
      simp only [Function.update_self, Order.setPrice]
      split_ifs <;> exact ⟨rfl, rfl, rfl, rfl⟩
    · simp only [Function.update_of_ne hother, and_self]
  refine ⟨hmodified.ordered.congr_entry fun other hstored => ⟨?_, (hfields other).2.2.2⟩,
    fun other => ?_⟩
  · by_cases hother : other = order
    · subst hother
      rcases huntouched hstored with hrefused | rfl
      · simp only [Entry.of, Function.update_self, Order.setPrice, if_pos hrefused]
      · simp only [Entry.of, Function.update_self, Order.setPrice]
        split_ifs <;> rfl
    · simp only [Entry.of, Function.update_of_ne hother]
  · obtain ⟨hquantity, hremaining, _⟩ := hfields other
    have hledger := hmodified.ledger other
    change (Function.update state.orders order _ other).quantity = _ +
      (Function.update state.orders order _ other).remainingQuantity
    rw [hquantity, hremaining]
    exact hledger

/-- Setting the quantity of an order that has not traded. -/
theorem setQuantity (hmodified : state.Modified) {order : ι} {newQuantity : Int}
    (huntouched : state.Untouched (.setQuantity order newQuantity)) :
    (state.modify (.setQuantity order newQuantity)).Modified := by
  refine ⟨hmodified.ordered.congr_entry fun other _ => ?_, fun other => ?_⟩
  · by_cases hother : other = order
    · subst hother
      simp only [Entry.of, Function.update_self, Order.setQuantity]
      split_ifs <;> exact ⟨rfl, rfl⟩
    · simp only [Entry.of, Function.update_of_ne hother, and_self]
  · have hledger := hmodified.ledger other
    simp only [Engine.modify]
    by_cases hother : other = order
    · subst hother
      rw [Function.update_self, Order.setQuantity]
      split_ifs with hnegative
      · exact hledger
      · have hunnamed := huntouched.resolve_left hnegative
        rw [tradedQuantity_of_unnamed hunnamed, zero_add]
    · rw [Function.update_of_ne hother]
      exact hledger

theorem modify (hmodified : state.Modified) {op : ModifyOp α ι} (huntouched : state.Untouched op) :
    (state.modify op).Modified := by
  cases op with
  | book op => exact hmodified.perform op
  | setPrice order newPrice => exact hmodified.setPrice huntouched
  | setQuantity order newQuantity => exact hmodified.setQuantity huntouched

omit [Zero α] in
theorem coherent (hmodified : state.Modified) : state.Coherent := by
  have hordered := hmodified.ordered
  refine ⟨fun isBuyOrder => ?_, ?_, fun order => ?_⟩
  · exact (hordered.side_sorted isBuyOrder).ascending_orders (hordered.aligned.side isBuyOrder)
  · intro event hevent order hnames hfilled hstored
    have hmatched := hordered.matched
    obtain ⟨events, htrades, hsound⟩ := hmatched.trades
    rw [matchTrades, htrades, List.drop_left] at hevent
    -- the trade has taken something from the order
    have htaken := tradedQuantity_pos (fun other hother => (hsound other hother).1) hevent hnames
    have hbalance := hmatched.balance order
    rw [htrades, tradedQuantity_append] at hbalance
    rcases hmatched.unfilled order hstored with hleft | hsame
    · exact hleft hfilled
    · rw [hsame] at hbalance
      omega
  · have hledger := hmodified.ledger order
    omega

end Modified

/-- In every run of calls and modifications, in which the price of a resting order does not
change and the quantity of an order is set only before its first trade, every state is
coherent. -/
theorem run_modify_coherent (orders : ι → Order α) (hfresh : ∀ order, (orders order).Fresh)
    (ops : List (ModifyOp α ι))
    (huntouched : Transition.Along Engine.modify Untouched (init orders) ops) (count : Nat) :
    (Transition.run Engine.modify (init orders) (ops.take count)).Coherent := by
  have hmodified : (Transition.run Engine.modify (init orders) (ops.take count)).Modified :=
    Transition.run_invariant_of_along Engine.modify Modified
      (fun _ _ hstate hop => hstate.modify hop) (Modified.init hfresh)
      (huntouched.take Engine.modify count)
  exact hmodified.coherent

instance (state : Engine α ι) : ∀ op, Decidable (state.Untouched op)
  | .book _ => .isTrue trivial
  | .setPrice _ _ => inferInstanceAs (Decidable (_ ∈ _ → _ ∨ _))
  | .setQuantity _ _ => inferInstanceAs (Decidable (_ ∨ ∀ event ∈ _, ¬ _))

/-- A bid for ten shares at ten, one for ten at nine, and an offer of four. -/
def modifiedOrders : Nat → Order Int
  | 0 => Order.sample "A" 10 10 true 1
  | 1 => Order.sample "B" 9 10 true 2
  | _ => Order.sample "C" 9 4 false 3

theorem modifiedOrders_fresh (order : Nat) : (modifiedOrders order).Fresh := by
  unfold modifiedOrders
  split <;> exact Order.sample_fresh _ _ _ _ _

/-- The quantity of an offer is set before it is added and traded. -/
theorem run_modify_coherent_before_trade :
    (Transition.run Engine.modify (init modifiedOrders)
      [.book (.add 0), .setQuantity 2 6, .book (.add 2), .book .matchOrders]).Coherent :=
  run_modify_coherent modifiedOrders modifiedOrders_fresh
    [.book (.add 0), .setQuantity 2 6, .book (.add 2), .book .matchOrders] (by decide) 4

/-- The lower of two bids is raised above the other: the tree is not ordered any more. -/
def raisedBid : Engine Int Nat :=
  Transition.run Engine.modify (init modifiedOrders)
    [.book (.add 0), .book (.add 1), .setPrice 1 11]

/-- A bid is raised and reduced to four shares, and an offer of four shares is added. -/
def raisedAndFilled : Engine Int Nat :=
  Transition.run Engine.modify (init modifiedOrders)
    [.book (.add 1), .setPrice 1 11, .setQuantity 1 4, .book (.add 2)]

/-- A bid has traded four shares and is set to ten. -/
def resetBid : Engine Int Nat :=
  Transition.run Engine.modify (init modifiedOrders)
    [.book (.add 0), .book (.add 2), .book .matchOrders, .setQuantity 0 10]

/-- The tree of the first book is not ordered, the order that the second book fills stays in
its tree, and in the third the four traded shares are not gone from the bid. -/
theorem modification_breaks_book :
    ¬ raisedBid.Coherent ∧ ¬ raisedAndFilled.Coherent ∧ ¬ resetBid.Coherent := by
  refine ⟨?_, ?_, ?_⟩
  · intro hcoherent
    have hascending := hcoherent.ordered true
    unfold KeyedList.Ascending at hascending
    revert hascending
    decide
  · intro hcoherent
    obtain ⟨event, hevent, hnames⟩ :
        ∃ event ∈ raisedAndFilled.matchTrades, event.Names 1 := by decide
    have hgone := hcoherent.removed event hevent 1 hnames (by decide)
    exact hgone (by decide)
  · intro hcoherent
    have hledger := hcoherent.ledger 0
    revert hledger
    decide

end Engine

end QuantTrading
