import QuantTrading.Engine.Arrival
import QuantTrading.Server.Registry

/-! # Continuous matching

The server matches a book after every order it places. Between messages every
book is therefore settled: its best pair does not match. A message changes one
book, and the books share no orders, so the others stay as they are; and the
trades of a message are all trades of the order it places.
-/

namespace QuantTrading

variable {α : Type*}

/-- The orders in the nodes of a registered book. -/
def RegisteredBook.storedOrders (registered : RegisteredBook α) : List Nat :=
  registered.book.buyOrders.orders ++ registered.book.sellOrders.orders

namespace ServerHandlers

variable [LinearOrder α]

/-- Every registered book is settled and holds allocated orders, and no two of them
share one. -/
structure Settled (handlers : ServerHandlers α) : Prop where
  books : ∀ (index : Nat) (registered : RegisteredBook α),
    handlers.books[index]? = some registered →
      Engine.Settled registered.symbol (handlers.engine registered.book)
  allocated : ∀ (index : Nat) (registered : RegisteredBook α),
    handlers.books[index]? = some registered →
      ∀ order ∈ registered.storedOrders, order < handlers.nextAddress
  disjoint : ∀ (index other : Nat) (first second : RegisteredBook α), index ≠ other →
    handlers.books[index]? = some first → handlers.books[other]? = some second →
      ∀ order ∈ first.storedOrders, order ∉ second.storedOrders

theorem create_settled (orders : Nat → Order α) (broadcaster : Option TradeBroadcaster) :
    (create orders broadcaster).Settled :=
  ⟨by simp [create], by simp [create], by simp [create]⟩

omit [LinearOrder α] in
theorem getElem?_set_cases {books : List (RegisteredBook α)} {index position : Nat}
    {new registered : RegisteredBook α}
    (hget : (books.set index new)[position]? = some registered) :
    position = index ∧ registered = new ∨
      position ≠ index ∧ books[position]? = some registered := by
  by_cases heq : position = index
  · subst heq
    obtain ⟨hlt, hvalue⟩ := List.getElem?_eq_some_iff.mp hget
    rw [List.getElem_set_self] at hvalue
    exact Or.inl ⟨rfl, hvalue.symm⟩
  · rw [List.getElem?_set_ne (Ne.symm heq)] at hget
    exact Or.inr ⟨heq, hget⟩

/-- Replacing the book at one index by a settled one whose orders are its old ones
and newly allocated ones. -/
theorem Settled.update {handlers : ServerHandlers α} (hsettled : handlers.Settled) {index : Nat}
    {registered : RegisteredBook α} (hindex : handlers.books[index]? = some registered)
    {after : Engine α Nat} {nextAddress : Nat} (hnext : handlers.nextAddress ≤ nextAddress)
    (hafter : Engine.Settled registered.symbol after)
    (hstored : ∀ order ∈ after.storedOrders, order ∈ registered.storedOrders ∨
      handlers.nextAddress ≤ order ∧ order < nextAddress)
    (hothers : ∀ order, order < handlers.nextAddress → order ∉ registered.storedOrders →
      after.orders order = handlers.orders order) :
    ({ handlers.update index registered after with nextAddress := nextAddress } :
      ServerHandlers α).Settled := by
  -- an order of the replaced book is in no other book
  have hapart : ∀ (position : Nat) (other : RegisteredBook α), position ≠ index →
      handlers.books[position]? = some other →
        ∀ order ∈ other.storedOrders, order ∉ after.storedOrders := by
    intro position other hne hget order horder hmem
    rcases hstored order hmem with hold | ⟨hge, _⟩
    · exact hsettled.disjoint position index other registered hne hget hindex order horder hold
    · have hlt := hsettled.allocated position other hget order horder
      omega
  refine ⟨?_, ?_, ?_⟩
  · intro position entry hget
    rcases getElem?_set_cases hget with ⟨_, rfl⟩ | ⟨hne, hold⟩
    · exact hafter
    · refine (hsettled.books position entry hold).congr rfl fun order horder => ?_
      exact hothers order (hsettled.allocated position entry hold order horder)
        (hsettled.disjoint position index entry registered hne hold hindex order horder)
  · intro position entry hget order horder
    rcases getElem?_set_cases hget with ⟨_, rfl⟩ | ⟨_, hold⟩
    · rcases hstored order horder with hregistered | ⟨_, hlt⟩
      · exact (hsettled.allocated index registered hindex order hregistered).trans_le hnext
      · exact hlt
    · exact (hsettled.allocated position entry hold order horder).trans_le hnext
  · intro position other first second hne hfirst hsecond order horder
    rcases getElem?_set_cases hfirst with ⟨rfl, rfl⟩ | ⟨hfirstNe, hfirstOld⟩ <;>
      rcases getElem?_set_cases hsecond with ⟨rfl, rfl⟩ | ⟨hsecondNe, hsecondOld⟩
    · exact absurd rfl hne
    · exact fun hmem => hapart other second hsecondNe hsecondOld order hmem horder
    · exact hapart position first hfirstNe hfirstOld order horder
    · exact hsettled.disjoint position other first second hne hfirstOld hsecondOld order horder

/-- Registering an empty book. -/
theorem Settled.register {handlers : ServerHandlers α} (hsettled : handlers.Settled)
    (symbol : CString) :
    ({ handlers with
      books := handlers.books ++ [{ symbol := symbol, book := OrderBook.empty }] } :
      ServerHandlers α).Settled := by
  have hcases : ∀ {position : Nat} {entry : RegisteredBook α},
      (handlers.books ++ [{ symbol := symbol, book := OrderBook.empty }])[position]? =
        some entry →
      handlers.books[position]? = some entry ∨
        entry = { symbol := symbol, book := OrderBook.empty } := by
    intro position entry hget
    rcases lt_or_ge position handlers.books.length with hlt | hge
    · exact Or.inl (by rwa [List.getElem?_append_left hlt] at hget)
    · rw [List.getElem?_append_right hge] at hget
      exact Or.inr (by simpa using List.mem_of_getElem? hget)
  refine ⟨?_, ?_, ?_⟩
  · intro position entry hget
    rcases hcases hget with hold | rfl
    · exact (hsettled.books position entry hold).congr rfl fun _ _ => rfl
    · refine ⟨⟨⟨?_, ?_⟩, AVLTree.create_sorted true, AVLTree.create_sorted false⟩, ?_, rfl⟩
      · exact fun _ hentry => absurd hentry List.not_mem_nil
      · exact fun _ hentry => absurd hentry List.not_mem_nil
      · exact fun _ horder => absurd horder List.not_mem_nil
  · intro position entry hget order horder
    rcases hcases hget with hold | rfl
    · exact hsettled.allocated position entry hold order horder
    · exact absurd horder List.not_mem_nil
  · intro position other first second hne hfirst hsecond order horder hmem
    rcases hcases hfirst with hfirstOld | rfl
    · rcases hcases hsecond with hsecondOld | rfl
      · exact hsettled.disjoint position other first second hne hfirstOld hsecondOld order horder
          hmem
      · exact absurd hmem List.not_mem_nil
    · exact absurd horder List.not_mem_nil

/-- Finding or creating a book leaves the memory and the trades alone. -/
theorem Settled.findOrCreateBook {handlers after : ServerHandlers α} (hsettled : handlers.Settled)
    {symbol : CString} {found : Option (Nat × RegisteredBook α)}
    (hfind : handlers.findOrCreateBook symbol = (found, after)) :
    after.Settled ∧ after.nextAddress = handlers.nextAddress ∧ after.trades = handlers.trades := by
  rcases (findOrCreateBook_spec hfind).1 with rfl | rfl
  · exact ⟨hsettled, rfl, rfl⟩
  · exact ⟨hsettled.register (symbol.take 15), rfl, rfl⟩

/-- The order is the one `handle_place_order` creates for the message, up to what
filling and cancelling change. -/
def CreatedFor (message : Option (OrderMessage α)) (created : Int) (order : Order α) : Prop :=
  ∃ parsed newOrder, message = some parsed ∧
    Order.create parsed.orderId parsed.traderId parsed.symbol parsed.price parsed.quantity
      parsed.isBuy created = some newOrder ∧
    order.terms = newOrder.terms

/-- Adding a created order to a registered book and matching it. -/
theorem Settled.addAndMatch {handlers : ServerHandlers α} (hsettled : handlers.Settled)
    {index : Nat} {registered : RegisteredBook α}
    (hindex : handlers.books[index]? = some registered) {newOrder : Order α}
    (hsymbol : newOrder.symbol = registered.symbol) :
    let after := handlers.addAndMatch registered.book newOrder
    ({ handlers.update index registered after with nextAddress := handlers.nextAddress + 1 } :
        ServerHandlers α).Settled ∧
      (after.orders handlers.nextAddress).terms = newOrder.terms ∧
      ∃ events, after.trades = handlers.trades ++ events ∧
        ∀ event ∈ events, event.Names handlers.nextAddress := by
  intro after
  let allocated : Engine α Nat :=
    { orders := Function.update handlers.orders handlers.nextAddress newOrder
      book := registered.book
      trades := handlers.trades }
  -- the write at the new address reaches no order of any book
  have hother : ∀ order, order < handlers.nextAddress →
      allocated.orders order = handlers.orders order :=
    fun order hlt => Function.update_of_ne hlt.ne _ _
  have hnew : allocated.orders handlers.nextAddress = newOrder := Function.update_self ..
  have hallocated : Engine.Settled registered.symbol allocated :=
    (hsettled.books index registered hindex).congr rfl fun order horder =>
      hother order (hsettled.allocated index registered hindex order horder)
  have hfresh : handlers.nextAddress ∉ allocated.storedOrders := fun hmem =>
    (hsettled.allocated index registered hindex _ hmem).false
  obtain ⟨hafter, harrived⟩ := hallocated.place hfresh (hnew ▸ hsymbol)
  refine ⟨hsettled.update hindex (Nat.le_succ _) hafter ?_ ?_, ?_, harrived.trades⟩
  · intro order horder
    rcases harrived.stored order horder with rfl | hold
    · exact Or.inr ⟨le_rfl, Nat.lt_succ_self _⟩
    · exact Or.inl hold
  · intro order hlt hnotStored
    rw [← hother order hlt]
    exact harrived.others order hlt.ne hnotStored
  · -- neither adding nor matching changes the terms of an order
    have hadd := Engine.perform_sameTerms hallocated.ordered.aligned (.add handlers.nextAddress)
    have hmatch := Engine.perform_sameTerms
      (hallocated.ordered.aligned.perform (.add handlers.nextAddress)) .matchOrders
    exact ((hadd.trans hmatch) handlers.nextAddress).trans (congrArg Order.terms hnew)

/-- A place message keeps the books settled, and its trades are trades of the order
it creates. -/
theorem Settled.handlePlaceOrder {handlers : ServerHandlers α} (hsettled : handlers.Settled)
    (created confirmed : Int) (message : Option (OrderMessage α)) :
    let after := (handlers.handlePlaceOrder created confirmed message).1
    after.Settled ∧ ∃ events, after.trades = handlers.trades ++ events ∧
      ∀ event ∈ events, event.Names handlers.nextAddress ∧
        CreatedFor message created (after.orders handlers.nextAddress) := by
  unfold ServerHandlers.handlePlaceOrder
  split
  · exact ⟨hsettled, [], (List.append_nil _).symm, by simp⟩
  · rename_i parsed
    split
    · rename_i found hfind
      obtain ⟨hfound, _, htrades⟩ := hsettled.findOrCreateBook hfind
      exact ⟨hfound, [], by simpa using htrades, by simp⟩
    · rename_i index registered found hfind
      obtain ⟨hfound, hnext, htrades⟩ := hsettled.findOrCreateBook hfind
      obtain ⟨hindex, hsymbol⟩ := (findOrCreateBook_spec hfind).2 index registered rfl
      split
      · exact ⟨hfound, [], by simpa using htrades, by simp⟩
      · rename_i newOrder hcreate
        obtain ⟨hshort, hnewSymbol⟩ := Order.create_symbol hcreate
        -- a symbol that an order accepts is registered in full
        have hkept : parsed.symbol.take 15 = parsed.symbol :=
          List.take_of_length_le (Nat.le_of_lt_succ hshort)
        rw [hkept, or_self] at hsymbol
        obtain ⟨hafter, hterms, events, hevents, hnames⟩ :=
          hfound.addAndMatch hindex (hnewSymbol.trans hsymbol.symm)
        refine ⟨hafter, events, htrades ▸ hevents, fun event hevent => ⟨?_, ?_⟩⟩
        · exact hnext ▸ hnames event hevent
        · exact ⟨parsed, newOrder, rfl, hcreate, hnext ▸ hterms⟩

/-- A cancel message keeps the books settled and trades nothing. -/
theorem Settled.handleCancelOrder {handlers : ServerHandlers α} (hsettled : handlers.Settled)
    (confirmed : Int) (request : CancelRequest) :
    let after := (handlers.handleCancelOrder confirmed request).1
    after.Settled ∧ after.trades = handlers.trades := by
  unfold ServerHandlers.handleCancelOrder
  split
  · split
    · exact ⟨hsettled, rfl⟩
    · rename_i orderId symbol _ _ _ index registered hfind
      split
      · exact ⟨hsettled, rfl⟩
      · rename_i isBuy _
        dsimp only
        split_ifs
        · exact ⟨hsettled, rfl⟩
        · obtain ⟨hindex, _⟩ := findBook_eq_some hfind
          obtain ⟨hafter, hothers⟩ :=
            (hsettled.books index registered hindex).cancelOrder orderId (decide (isBuy ≠ 0))
          refine ⟨hsettled.update hindex le_rfl hafter ?_ ?_, ?_⟩
          · intro order horder
            rw [Engine.storedOrders, Engine.cancelOrder_book] at horder
            exact Or.inl horder
          · exact fun order _ hnotStored => hothers order hnotStored
          · exact Engine.cancelOrder_trades ..
  · exact ⟨hsettled, rfl⟩

omit [LinearOrder α] in
theorem handleBookRequest_handlers (handlers : ServerHandlers α) (symbol : Option CString) :
    (handlers.handleBookRequest symbol).1 = handlers := by
  unfold handleBookRequest
  split
  · rfl
  · split <;> rfl

theorem Settled.handle {handlers : ServerHandlers α} (hsettled : handlers.Settled)
    (message : ClientMessage α) : (handlers.handle message).1.Settled := by
  cases message with
  | placeOrder created confirmed order =>
      exact (hsettled.handlePlaceOrder created confirmed order).1
  | cancelOrder confirmed request => exact (hsettled.handleCancelOrder confirmed request).1
  | requestBook symbol =>
      rw [ServerHandlers.handle, handleBookRequest_handlers]
      exact hsettled

/-- After any messages, with a broadcaster configured: no book has a best pair that
matches; the next place message trades nothing but the order it creates, at the
address the next order is allocated at; and the other messages trade nothing. -/
theorem run_continuous_matching (orders : Nat → Order α) (broadcaster : TradeBroadcaster)
    (messages : List (ClientMessage α)) :
    let handlers := Transition.run (fun handlers message => (handlers.handle message).1)
      (create orders (some broadcaster)) messages
    (∀ registered ∈ handlers.books, ∀ buy ∈ registered.book.buyOrders.findMax,
      ∀ sell ∈ registered.book.sellOrders.findMin,
        isMatchPossible (handlers.orders buy) (handlers.orders sell) = false) ∧
    (∀ created confirmed message,
      let after := (handlers.handle (.placeOrder created confirmed message)).1
      ∃ events, after.trades = handlers.trades ++ events ∧
        ∀ event ∈ events, event.Names handlers.nextAddress ∧
          CreatedFor message created (after.orders handlers.nextAddress)) ∧
    (∀ confirmed request,
      (handlers.handle (.cancelOrder confirmed request)).1.trades = handlers.trades) ∧
    ∀ symbol, (handlers.handle (.requestBook symbol)).1 = handlers := by
  intro handlers
  have hsettled : handlers.Settled :=
    Transition.run_invariant _ Settled (fun _ message h => h.handle message)
      (create_settled orders (some broadcaster)) messages
  refine ⟨?_, ?_, ?_, ?_⟩
  · intro registered hregistered buy hbuy sell hsell
    obtain ⟨index, hindex⟩ := List.mem_iff_getElem?.mp hregistered
    apply Bool.eq_false_iff.mpr
    intro hmatch
    have hpair : (handlers.engine registered.book).matchingPair = some (buy, sell) :=
      Engine.matchingPair_eq_some_iff.mpr ⟨hbuy, hsell, hmatch⟩
    rw [(hsettled.books index registered hindex).quiet] at hpair
    cases hpair
  · exact fun created confirmed message => (hsettled.handlePlaceOrder created confirmed message).2
  · exact fun confirmed request => (hsettled.handleCancelOrder confirmed request).2
  · exact fun symbol => handleBookRequest_handlers handlers symbol

end ServerHandlers

end QuantTrading
