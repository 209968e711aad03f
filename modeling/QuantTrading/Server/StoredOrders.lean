import QuantTrading.Server.ContinuousMatching

/-! # What holds of every stored order

An order enters a book by a place message and is never moved or rewritten: only
what is left of it and its cancellation mark change. A property of the other
fields therefore holds of every stored order as soon as it holds of every order
that is placed, whatever comparisons of prices are like.
-/

namespace QuantTrading

variable {α : Type*} [LT α] [DecidableLT α] [BEq α]

namespace Engine

/-- Matching stores nothing. -/
theorem mem_storedOrders_of_matchOrders {ι : Type*} [DecidableEq ι] {state : Engine α ι}
    (haligned : state.Aligned) {order : ι} (horder : order ∈ state.matchOrders.storedOrders) :
    order ∈ state.storedOrders := by
  have hinvariant : state.matchOrders.Aligned ∧
      ∀ order ∈ state.matchOrders.storedOrders, order ∈ state.storedOrders := by
    refine matchOrders_invariant
      (fun current => current.Aligned ∧ ∀ order ∈ current.storedOrders, order ∈ state.storedOrders)
      ?_ ⟨haligned, fun _ h => h⟩
    rintro current next ⟨hcurrent, hsubset⟩ hnext
    obtain ⟨buy, sell, htraded⟩ := hcurrent.traded hnext
    exact ⟨htraded.aligned hcurrent,
      fun order horder => hsubset order (htraded.mem_storedOrders horder)⟩
  exact hinvariant.2 order horder

end Engine

namespace ServerHandlers

/-- Adding a created order to a book and matching it. -/
theorem addAndMatch_spec (handlers : ServerHandlers α) (book : OrderBook α Nat)
    (newOrder : Order α)
    (haligned : Engine.Aligned
      { orders := Function.update handlers.orders handlers.nextAddress newOrder
        book := book
        trades := handlers.trades }) :
    let after := handlers.addAndMatch book newOrder
    after.Aligned ∧
      SameTerms (Function.update handlers.orders handlers.nextAddress newOrder) after.orders ∧
      ∀ order ∈ after.storedOrders, order = handlers.nextAddress ∨
        order ∈ book.buyOrders.orders ++ book.sellOrders.orders := by
  have hadd := haligned.perform (.add handlers.nextAddress)
  refine ⟨hadd.perform .matchOrders, ?_, fun order horder => ?_⟩
  · exact (Engine.perform_sameTerms haligned (.add handlers.nextAddress)).trans
      (Engine.perform_sameTerms hadd .matchOrders)
  · exact Engine.mem_storedOrders_of_addOrder
      (Engine.mem_storedOrders_of_matchOrders hadd horder)

omit [LT α] [DecidableLT α] [BEq α] in
/-- A property of the symbol of a book and the terms of an order, true of every
order stored in a book. -/
structure Stored (keeps : CString → Order α → Prop) (handlers : ServerHandlers α) : Prop where
  aligned : ∀ registered ∈ handlers.books, (handlers.engine registered.book).Aligned
  allocated : ∀ registered ∈ handlers.books, ∀ order ∈ registered.storedOrders,
    order < handlers.nextAddress
  keeps : ∀ registered ∈ handlers.books, ∀ order ∈ registered.storedOrders,
    keeps registered.symbol (handlers.orders order).terms

namespace Stored

variable {keeps : CString → Order α → Prop} {handlers : ServerHandlers α}

omit [LT α] [DecidableLT α] [BEq α] in
theorem create (orders : Nat → Order α) (broadcaster : Option TradeBroadcaster) :
    Stored keeps (ServerHandlers.create orders broadcaster) :=
  ⟨by simp [ServerHandlers.create], by simp [ServerHandlers.create],
    by simp [ServerHandlers.create]⟩

omit [LT α] [DecidableLT α] [BEq α] in
/-- Registering an empty book. -/
theorem register (hstored : Stored keeps handlers) (symbol : CString) :
    Stored keeps { handlers with
      books := handlers.books ++ [{ symbol := symbol, book := OrderBook.empty }] } := by
  refine ⟨?_, ?_, ?_⟩
  · intro registered hregistered
    rcases List.mem_append.mp hregistered with hold | hnew
    · exact hstored.aligned registered hold
    · rw [List.mem_singleton.mp hnew]
      have hempty := Engine.init_aligned handlers.orders
      exact ⟨hempty.buy, hempty.sell⟩
  · intro registered hregistered order horder
    rcases List.mem_append.mp hregistered with hold | hnew
    · exact hstored.allocated registered hold order horder
    · rw [List.mem_singleton.mp hnew] at horder
      exact absurd horder List.not_mem_nil
  · intro registered hregistered order horder
    rcases List.mem_append.mp hregistered with hold | hnew
    · exact hstored.keeps registered hold order horder
    · rw [List.mem_singleton.mp hnew] at horder
      exact absurd horder List.not_mem_nil

omit [LT α] [DecidableLT α] [BEq α] in
/-- Replacing the book at one index, over a memory whose allocated orders have kept
their terms. -/
theorem update (hstored : Stored keeps handlers) {index : Nat} {registered : RegisteredBook α}
    {after : Engine α Nat} {nextAddress : Nat} (hnext : handlers.nextAddress ≤ nextAddress)
    (hafter : after.Aligned)
    (hsame : ∀ order < handlers.nextAddress,
      (after.orders order).terms = (handlers.orders order).terms)
    (hkeeps : ∀ order ∈ after.storedOrders,
      order < nextAddress ∧ keeps registered.symbol (after.orders order).terms) :
    Stored keeps
      { handlers.update index registered after with nextAddress := nextAddress } := by
  refine ⟨?_, ?_, ?_⟩
  · intro entry hentry
    rcases List.mem_or_eq_of_mem_set hentry with hold | rfl
    · have haligned := hstored.aligned entry hold
      have hagree : ∀ order ∈ entry.storedOrders,
          (after.orders order).terms = (handlers.orders order).terms :=
        fun order horder => hsame order (hstored.allocated entry hold order horder)
      refine ⟨haligned.buy.congr_terms fun order horder => ?_,
        haligned.sell.congr_terms fun order horder => ?_⟩
      · exact hagree order (List.mem_append_left _ horder)
      · exact hagree order (List.mem_append_right _ horder)
    · exact hafter
  · intro entry hentry order horder
    rcases List.mem_or_eq_of_mem_set hentry with hold | rfl
    · exact (hstored.allocated entry hold order horder).trans_le hnext
    · exact (hkeeps order horder).1
  · intro entry hentry order horder
    rcases List.mem_or_eq_of_mem_set hentry with hold | rfl
    · have hlt := hstored.allocated entry hold order horder
      exact hsame order hlt ▸ hstored.keeps entry hold order horder
    · exact (hkeeps order horder).2

/-- What placing an order makes of the memory and of its book. The new order is written
where no stored order is. -/
theorem addAndMatch_after (hstored : Stored keeps handlers) {registered : RegisteredBook α}
    (hregistered : registered ∈ handlers.books) (newOrder : Order α) :
    let after := handlers.addAndMatch registered.book newOrder
    after.Aligned ∧ (after.orders handlers.nextAddress).terms = newOrder.terms ∧
      (∀ order, order ≠ handlers.nextAddress →
        (after.orders order).terms = (handlers.orders order).terms) ∧
      ∀ order ∈ after.storedOrders, order = handlers.nextAddress ∨
        order ∈ registered.storedOrders := by
  have haligned := hstored.aligned registered hregistered
  have hother : ∀ order, order ≠ handlers.nextAddress →
      Function.update handlers.orders handlers.nextAddress newOrder order =
        handlers.orders order :=
    fun order hne => Function.update_of_ne hne _ _
  have hkept : ∀ order ∈ registered.storedOrders, order ≠ handlers.nextAddress :=
    fun order horder => (hstored.allocated registered hregistered order horder).ne
  obtain ⟨hafter, hterms, hmem⟩ := addAndMatch_spec handlers registered.book newOrder
    ⟨haligned.buy.congr fun order horder =>
        hother order (hkept order (List.mem_append_left _ horder)),
      haligned.sell.congr fun order horder =>
        hother order (hkept order (List.mem_append_right _ horder))⟩
  refine ⟨hafter, ?_, fun order hne => ?_, hmem⟩
  · have hrecord := hterms handlers.nextAddress
    rwa [Function.update_self] at hrecord
  · exact (hterms order).trans (congrArg Order.terms (hother order hne))

/-- Placing an order for which the property holds. -/
theorem addAndMatch (hstored : Stored keeps handlers) {index : Nat}
    {registered : RegisteredBook α} (hindex : handlers.books[index]? = some registered)
    {newOrder : Order α} (hnew : keeps registered.symbol newOrder.terms) :
    Stored keeps
      { handlers.update index registered (handlers.addAndMatch registered.book newOrder) with
        nextAddress := handlers.nextAddress + 1 } := by
  have hregistered := List.mem_of_getElem? hindex
  obtain ⟨hafter, hrecord, hsame, hmem⟩ := hstored.addAndMatch_after hregistered newOrder
  apply hstored.update (Nat.le_succ _) hafter fun order hlt => hsame order hlt.ne
  intro order horder
  rcases hmem order horder with rfl | hold
  · exact ⟨Nat.lt_succ_self _, hrecord ▸ hnew⟩
  · have hlt := hstored.allocated registered hregistered order hold
    exact ⟨hlt.trans (Nat.lt_succ_self _),
      hsame order hlt.ne ▸ hstored.keeps registered hregistered order hold⟩

omit [LT α] [DecidableLT α] [BEq α] in
theorem findOrCreateBook (hstored : Stored keeps handlers) {symbol : CString}
    {found : Option (Nat × RegisteredBook α)} {after : ServerHandlers α}
    (hfind : handlers.findOrCreateBook symbol = (found, after)) : Stored keeps after := by
  rcases (findOrCreateBook_spec hfind).1 with rfl | rfl
  · exact hstored
  · exact hstored.register (symbol.take 15)

/-- A place message whose order has the property. -/
theorem handlePlaceOrder (hstored : Stored keeps handlers) (created confirmed : Int)
    {message : Option (OrderMessage α)}
    (hkeeps : ∀ order newOrder, message = some order →
      Order.create order.orderId order.traderId order.symbol order.price order.quantity
        order.isBuy created = some newOrder → keeps order.symbol newOrder.terms) :
    Stored keeps (handlers.handlePlaceOrder created confirmed message).1 := by
  unfold ServerHandlers.handlePlaceOrder
  split
  · exact hstored
  · rename_i order
    split
    · rename_i found hfind
      exact hstored.findOrCreateBook hfind
    · rename_i index registered found hfind
      have hfound := hstored.findOrCreateBook hfind
      obtain ⟨hindex, hsymbol⟩ := (findOrCreateBook_spec hfind).2 index registered rfl
      split
      · exact hfound
      · rename_i newOrder hcreate
        have hfits : order.symbol.take 15 = order.symbol :=
          List.take_of_length_le (Nat.le_of_lt_succ (Order.create_symbol hcreate).1)
        rw [hfits, or_self] at hsymbol
        exact hfound.addAndMatch hindex (hsymbol.symm ▸ hkeeps order newOrder rfl hcreate)

/-- A cancel message changes no terms. -/
theorem handleCancelOrder (hstored : Stored keeps handlers) (confirmed : Int)
    (request : CancelRequest) :
    Stored keeps (handlers.handleCancelOrder confirmed request).1 := by
  unfold ServerHandlers.handleCancelOrder
  split
  · split
    · exact hstored
    · rename_i orderId symbol _ _ _ index registered hfind
      split
      · exact hstored
      · rename_i isBuy _
        dsimp only
        split_ifs
        · exact hstored
        · have hmem := List.mem_of_getElem? (findBook_eq_some hfind).1
          have hsame := (handlers.engine registered.book).cancelOrder_sameTerms orderId
            (decide (isBuy ≠ 0))
          refine hstored.update le_rfl
            ((hstored.aligned registered hmem).perform (.cancel orderId (decide (isBuy ≠ 0))))
            (fun order _ => hsame order) fun order horder => ?_
          rw [Engine.storedOrders, Engine.cancelOrder_book] at horder
          refine ⟨hstored.allocated registered hmem order horder, ?_⟩
          exact (hsame order).symm ▸ hstored.keeps registered hmem order horder
  · exact hstored

theorem handle (hstored : Stored keeps handlers) {call : ClientMessage α}
    (hkeeps : ∀ created confirmed order newOrder,
      call = .placeOrder created confirmed (some order) →
      Order.create order.orderId order.traderId order.symbol order.price order.quantity
        order.isBuy created = some newOrder → keeps order.symbol newOrder.terms) :
    Stored keeps (handlers.handle call).1 := by
  cases call with
  | placeOrder created confirmed message =>
      apply hstored.handlePlaceOrder created confirmed
      intro order newOrder hmessage hcreate
      exact hkeeps created confirmed order newOrder (hmessage ▸ rfl) hcreate
  | cancelOrder confirmed request => exact hstored.handleCancelOrder confirmed request
  | requestBook symbol =>
      rw [ServerHandlers.handle, handleBookRequest_handlers]
      exact hstored

end Stored

end ServerHandlers

end QuantTrading
