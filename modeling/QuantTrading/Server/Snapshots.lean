import QuantTrading.Foundation.ListTops
import QuantTrading.Server.OrderAddressing

/-! # What a snapshot shows of a book

`collect_orders` takes the live orders of each tree in in-order sequence until it has
200 of a side. The walk of the sell tree begins at the best offer, that of the buy
tree at the worst bid, so a snapshot shows the top of the sell side always, and of the
buy side only when nothing is cut off that is better than what is shown.
-/

namespace QuantTrading

open ListTops

variable {α : Type*}

/-- The live orders of a tree, in in-order sequence. -/
def liveOrders (orders : Nat → Order α) (tree : AVLTree α Nat) : List Nat :=
  tree.orders.filter fun order => (orders order).Live

/-- What a snapshot shows of an order. -/
def levelOf (orders : Nat → Order α) (order : Nat) : α × Int :=
  ((orders order).price, (orders order).remainingQuantity)

section Collecting

variable {orders : Nat → Order α} {list : List Nat}

theorem skipped_iff {order : Order α} :
    (order.isCanceled || decide (order.remainingQuantity ≤ 0)) = true ↔ ¬ order.Live := by
  rw [Order.Live]
  cases order.isCanceled <;> simp

/-- Walking buy orders fills the bids and leaves the rest of the snapshot alone. -/
theorem foldl_collectOrders_buy (hside : ∀ order ∈ list, (orders order).isBuyOrder = true)
    (snapshot : BookSnapshot α) :
    list.foldl (fun snapshot order => collectOrders orders order snapshot) snapshot =
      { snapshot with
        bids := list.foldl (fun bids order =>
          if decide (orders order).Live ∧ bids.length < snapshot.maxOrders then
            bids ++ [levelOf orders order]
          else bids) snapshot.bids } := by
  induction list generalizing snapshot with
  | nil => rfl
  | cons order rest ih =>
      have hbuy := hside order List.mem_cons_self
      rw [List.foldl_cons, List.foldl_cons, ih fun other hother =>
        hside other (List.mem_cons_of_mem order hother)]
      unfold collectOrders
      simp only [hbuy, if_true, skipped_iff, levelOf]
      by_cases hlive : (orders order).Live
      · by_cases hroom : snapshot.bids.length < snapshot.maxOrders
        · simp [hlive, hroom]
        · simp [hlive, hroom]
      · simp [hlive]

/-- Walking sell orders fills the asks and leaves the rest of the snapshot alone. -/
theorem foldl_collectOrders_sell (hside : ∀ order ∈ list, (orders order).isBuyOrder = false)
    (snapshot : BookSnapshot α) :
    list.foldl (fun snapshot order => collectOrders orders order snapshot) snapshot =
      { snapshot with
        asks := list.foldl (fun asks order =>
          if decide (orders order).Live ∧ asks.length < snapshot.maxOrders then
            asks ++ [levelOf orders order]
          else asks) snapshot.asks } := by
  induction list generalizing snapshot with
  | nil => rfl
  | cons order rest ih =>
      have hsell := hside order List.mem_cons_self
      rw [List.foldl_cons, List.foldl_cons, ih fun other hother =>
        hside other (List.mem_cons_of_mem order hother)]
      unfold collectOrders
      simp only [hsell, Bool.false_eq_true, if_false, skipped_iff, levelOf]
      by_cases hlive : (orders order).Live
      · by_cases hroom : snapshot.asks.length < snapshot.maxOrders
        · simp [hlive, hroom]
        · simp [hlive, hroom]
      · simp [hlive]

end Collecting

/-- A snapshot of an aligned book holds the first 200 live orders of each tree. -/
theorem snapshot_eq {engine : Engine α Nat} (haligned : engine.Aligned) (symbol : CString) :
    ServerHandlers.snapshot engine.orders symbol engine.book =
      { symbol := symbol.take 15
        maxOrders := 200
        bids := ((liveOrders engine.orders engine.book.buyOrders).take 200).map
          (levelOf engine.orders)
        asks := ((liveOrders engine.orders engine.book.sellOrders).take 200).map
          (levelOf engine.orders) } := by
  unfold ServerHandlers.snapshot
  dsimp only
  rw [AVLTree.inorderTraverse_eq, AVLTree.inorderTraverse_eq,
    foldl_collectOrders_buy fun order horder => haligned.buy.side_of_mem horder,
    foldl_collectOrders_sell fun order horder => haligned.sell.side_of_mem horder]
  dsimp only
  rw [foldl_collect, foldl_collect]
  rfl

/-- The levels shown of one side are those of its best-priced live orders, 200 of them or
all, each once and in in-order sequence; one with the best price is among them. -/
def ShowsBest (orders : Nat → Order α) (noBetter : Nat → Nat → Prop) (live : List Nat)
    (levels : List (α × Int)) : Prop :=
  ∃ shown, TopOf noBetter 200 live shown ∧ levels = shown.map (levelOf orders) ∧
    (live ≠ [] → ∃ best ∈ shown, ∀ other ∈ live, noBetter other best)

/-- A snapshot shows the top of a book. -/
structure ShowsTop [LE α] (engine : Engine α Nat) (snapshot : BookSnapshot α) : Prop where
  asks : ShowsBest engine.orders
    (fun order best => (engine.orders best).price ≤ (engine.orders order).price)
    (liveOrders engine.orders engine.book.sellOrders) snapshot.asks
  bids : ShowsBest engine.orders
    (fun order best => (engine.orders order).price ≤ (engine.orders best).price)
    (liveOrders engine.orders engine.book.buyOrders) snapshot.bids

variable [LinearOrder α]

/-- The live orders of a tree come with ascending prices, each once. -/
theorem liveOrders_sorted {orders : Nat → Order α} {isBuyOrder : Bool} {tree : AVLTree α Nat}
    (hsorted : tree.Sorted) (haligned : tree.Aligned orders isBuyOrder) :
    (liveOrders orders tree).Pairwise (fun first second =>
      (orders first).price ≤ (orders second).price) ∧ (liveOrders orders tree).Nodup := by
  constructor
  · apply List.Pairwise.filter
    exact (hsorted.ascending_orders haligned).imp fun hkey => Order.price_le_of_key_le hkey.le
  · exact (hsorted.nodup_orders haligned).filter _

/-- The offers shown are the best. -/
theorem showsBest_asks {orders : Nat → Order α} {live : List Nat}
    (hsorted : live.Pairwise fun first second => (orders first).price ≤ (orders second).price) :
    ShowsBest orders (fun order best => (orders best).price ≤ (orders order).price) live
      ((live.take 200).map (levelOf orders)) := by
  have htop : TopOf (fun order best => OrderDual.toDual (orders order).price ≤
      OrderDual.toDual (orders best).price) 200 live (live.take 200) := topOf_take hsorted 200
  exact ⟨live.take 200, htop, rfl, fun hnonempty => htop.exists_highest (by decide) hnonempty⟩

/-- The bids shown are the best exactly when none is cut off or all have one price. -/
theorem showsBest_bids_iff {orders : Nat → Order α} {live : List Nat}
    (hsorted : live.Pairwise fun first second => (orders first).price ≤ (orders second).price)
    (hnodup : live.Nodup) :
    ShowsBest orders (fun order best => (orders order).price ≤ (orders best).price) live
        ((live.take 200).map (levelOf orders)) ↔
      live.length ≤ 200 ∨
        ∀ first ∈ live, ∀ second ∈ live, (orders first).price = (orders second).price := by
  constructor
  · rintro ⟨shown, htop, hlevels, _⟩
    apply htop.length_le_or_equal hnodup hsorted (by decide)
    have hprices := congrArg (List.map Prod.fst) hlevels
    rw [List.map_map, List.map_map] at hprices
    exact hprices.symm
  · intro hcondition
    have htop : TopOf (fun order best => (orders order).price ≤ (orders best).price) 200 live
        (live.take 200) := by
      rcases hcondition with hshort | hequal
      · rw [List.take_of_length_le hshort]
        exact topOf_self _ hshort
      · exact topOf_take_of_equal (fun x hx y hy => (hequal x hx y hy).le) 200
    exact ⟨live.take 200, htop, rfl, fun hnonempty => htop.exists_highest (by decide) hnonempty⟩

theorem snapshot_showsTop_iff {engine : Engine α Nat} (hordered : engine.Ordered)
    (symbol : CString) :
    ShowsTop engine (ServerHandlers.snapshot engine.orders symbol engine.book) ↔
      let bids := liveOrders engine.orders engine.book.buyOrders
      bids.length ≤ 200 ∨ ∀ first ∈ bids, ∀ second ∈ bids,
        (engine.orders first).price = (engine.orders second).price := by
  obtain ⟨hbids, hnodup⟩ := liveOrders_sorted hordered.buySorted hordered.aligned.buy
  obtain ⟨hasks, _⟩ := liveOrders_sorted hordered.sellSorted hordered.aligned.sell
  rw [snapshot_eq hordered.aligned]
  constructor
  · exact fun hshows => (showsBest_bids_iff hbids hnodup).mp hshows.bids
  · exact fun hcondition => ⟨showsBest_asks hasks, (showsBest_bids_iff hbids hnodup).mpr hcondition⟩

namespace ServerHandlers

omit [LinearOrder α] in
/-- The index and the entry there make up what is found. -/
theorem findBook_of_index {handlers : ServerHandlers α} {symbol : CString} {index : Nat}
    {registered : RegisteredBook α}
    (hindex : (handlers.findBook symbol).map Prod.fst = some index)
    (hentry : handlers.books[index]? = some registered) :
    handlers.findBook symbol = some (index, registered) := by
  obtain ⟨⟨position, entry⟩, hfound, rfl⟩ := Option.map_eq_some_iff.mp hindex
  obtain ⟨hget, _⟩ := findBook_eq_some hfound
  rw [hfound, Option.some.inj (hget.symm.trans hentry)]

/-- The book that a message asks for. -/
def bookSymbol : ClientMessage α → Option CString
  | .placeOrder _ _ order => order.map OrderMessage.symbol
  | .cancelOrder _ _ => none
  | .requestBook symbol => symbol

/-- The snapshot sent for a place message is taken of the book of its symbol, as it is when
the handler returns. -/
theorem handlePlaceOrder_snapshot {handlers : ServerHandlers α} {created confirmed : Int}
    {message : Option (OrderMessage α)} {sent : BookSnapshot α}
    (hsent : .bookSnapshot sent ∈ (handlers.handlePlaceOrder created confirmed message).2) :
    let after := (handlers.handlePlaceOrder created confirmed message).1
    ∃ order index registered, message = some order ∧
      after.findBook order.symbol = some (index, registered) ∧
      sent = snapshot after.orders order.symbol registered.book := by
  intro after
  rcases handlers.handlePlaceOrder_cases created confirmed message with
    ⟨reason, hresult⟩ | ⟨order, found, registry, rfl, hfind, ⟨reason, hresult⟩ |
      ⟨index, registered, newOrder, rfl, hcreate, hresult⟩⟩
  · rw [hresult] at hsent
    simp at hsent
  · rw [hresult] at hsent
    simp at hsent
  · rw [hresult] at hsent
    have hafter : after = { registry.update index registered
        (registry.addAndMatch registered.book newOrder) with
          nextAddress := registry.nextAddress + 1 } := congrArg Prod.fst hresult
    obtain rfl : sent = snapshot (registry.addAndMatch registered.book newOrder).orders
        order.symbol (registry.addAndMatch registered.book newOrder).book := by
      simpa using hsent
    have hfits : order.symbol.length ≤ 15 := Nat.le_of_lt_succ (Order.create_symbol hcreate).1
    obtain ⟨hindex, _⟩ := (findOrCreateBook_spec hfind).2 index registered rfl
    refine ⟨order, index,
      { registered with book := (registry.addAndMatch registered.book newOrder).book },
      rfl, ?_, ?_⟩
    · rw [hafter]
      apply findBook_of_index
      · rw [findBook_index]
        change (registry.update index registered _).symbols.findIdx? _ = _
        rw [symbols_update hindex, ← findBook_index]
        exact findBook_of_findOrCreateBook hfits hfind
      · exact List.getElem?_set_self (List.getElem?_eq_some_iff.mp hindex).1
    · rw [hafter]
      rfl

/-- A snapshot that a handler sends is taken of the book of the message's symbol, as it is
when the handler returns. -/
theorem handle_snapshot {handlers : ServerHandlers α} {message : ClientMessage α}
    {sent : BookSnapshot α} (hsent : .bookSnapshot sent ∈ (handlers.handle message).2) :
    let after := (handlers.handle message).1
    ∃ symbol index registered, bookSymbol message = some symbol ∧
      after.findBook symbol = some (index, registered) ∧
      sent = snapshot after.orders symbol registered.book := by
  intro after
  cases message with
  | placeOrder created confirmed message =>
      obtain ⟨order, index, registered, rfl, hfound, htaken⟩ := handlePlaceOrder_snapshot hsent
      exact ⟨order.symbol, index, registered, rfl, hfound, htaken⟩
  | cancelOrder confirmed request =>
      exfalso
      rcases handlers.handleCancelOrder_responses confirmed request with
        ⟨reason, hresponses⟩ | ⟨orderId, symbol, hresponses⟩
      all_goals
        rw [handle, hresponses] at hsent
        simp at hsent
  | requestBook symbol =>
      have hafter : after = handlers := handleBookRequest_handlers handlers symbol
      cases symbol with
      | none => simp [handle, handleBookRequest] at hsent
      | some symbol =>
          cases hfound : handlers.findBook symbol with
          | none => simp [handle, handleBookRequest, hfound] at hsent
          | some found =>
              obtain rfl : sent = snapshot handlers.orders symbol found.2.book := by
                simpa [handle, handleBookRequest, hfound] using hsent
              exact ⟨symbol, found.1, found.2, rfl, hafter ▸ hfound, hafter ▸ rfl⟩

/-- What a snapshot of a registered book shows between messages. -/
theorem Settled.showsTop_iff {handlers : ServerHandlers α} (hsettled : handlers.Settled)
    {symbol : CString} {found : Nat × RegisteredBook α}
    (hfound : handlers.findBook symbol = some found) :
    ShowsTop (handlers.engine found.2.book) (snapshot handlers.orders symbol found.2.book) ↔
      let bids := liveOrders handlers.orders found.2.book.buyOrders
      bids.length ≤ 200 ∨ ∀ first ∈ bids, ∀ second ∈ bids,
        (handlers.orders first).price = (handlers.orders second).price :=
  snapshot_showsTop_iff
    (hsettled.books found.1 found.2 (findBook_eq_some hfound).1).ordered symbol

/-- After any messages, a snapshot that the next message is answered with shows the top of
the book if and only if that book has at most 200 live bids or all its live bids have one
price. -/
theorem handleAll_snapshot_showsTop_iff (orders : Nat → Order α)
    (broadcaster : Option TradeBroadcaster) (messages : List (ClientMessage α))
    (message : ClientMessage α) (sent : BookSnapshot α)
    (hsent : .bookSnapshot sent ∈
      ((handleAll (create orders broadcaster) messages).handle message).2) :
    let after := ((handleAll (create orders broadcaster) messages).handle message).1
    ∃ symbol index registered, bookSymbol message = some symbol ∧
      after.findBook symbol = some (index, registered) ∧
      let bids := liveOrders after.orders registered.book.buyOrders
      (ShowsTop (after.engine registered.book) sent ↔
        bids.length ≤ 200 ∨ ∀ first ∈ bids, ∀ second ∈ bids,
          (after.orders first).price = (after.orders second).price) := by
  intro after
  have hsettled : after.Settled := Settled.handle
    (Transition.run_invariant _ Settled (fun _ message h => h.handle message)
      (create_settled orders broadcaster) messages) message
  obtain ⟨symbol, index, registered, hsymbol, hfound, rfl⟩ := handle_snapshot hsent
  refine ⟨symbol, index, registered, hsymbol, hfound, ?_⟩
  exact hsettled.showsTop_iff hfound

/-! ## A book with more bids than a snapshot shows -/

/-- Bids at rising prices. -/
def risingBids (count : Nat) : List (ClientMessage Int) :=
  (List.range count).map fun price => .placeOrder price price (some
    { symbol := "AAPL".toList
      orderId := "B".toList
      traderId := "T".toList
      price := price
      quantity := 1
      isBuy := true })

/-- The server after these bids, and its answer to a request for the book. -/
def afterRisingBids (count : Nat) : ServerHandlers Int :=
  handleAll (create (fun _ => Order.sample "B" 0 1 true 0) (some ⟨0⟩)) (risingBids count)

theorem afterRisingBids_settled (count : Nat) : (afterRisingBids count).Settled :=
  Transition.run_invariant _ Settled (fun _ message h => h.handle message) (create_settled _ _)
    (risingBids count)

omit [LinearOrder α] in
theorem mem_handle_requestBook [LT α] [DecidableLT α] [BEq α] {handlers : ServerHandlers α}
    {symbol : CString} {found : Nat × RegisteredBook α}
    (hfound : handlers.findBook symbol = some found) :
    .bookSnapshot (snapshot handlers.orders symbol found.2.book) ∈
      (handlers.handle (.requestBook (some symbol))).2 := by
  simp [handle, handleBookRequest, hfound]

/-- Three bids are all shown. -/
theorem handleAll_snapshot_showsTop_three :
    ∃ sent registered, .bookSnapshot sent ∈
        ((afterRisingBids 3).handle (.requestBook (some "AAPL".toList))).2 ∧
      registered ∈ (afterRisingBids 3).books ∧
      ShowsTop ((afterRisingBids 3).engine registered.book) sent := by
  have hrun : ((afterRisingBids 3).findBook "AAPL".toList).isSome ∧
      ∀ registered ∈ (afterRisingBids 3).books,
        (liveOrders (afterRisingBids 3).orders registered.book.buyOrders).length ≤ 200 := by
    decide +kernel
  obtain ⟨found, hfound⟩ := Option.isSome_iff_exists.mp hrun.1
  have hsent := mem_handle_requestBook hfound
  obtain ⟨symbol, index, registered, _, hbook, htop⟩ := handleAll_snapshot_showsTop_iff
    (fun _ => Order.sample "B" 0 1 true 0) (some ⟨0⟩) (risingBids 3)
    (.requestBook (some "AAPL".toList)) _ hsent
  have hmem := List.mem_of_getElem? (findBook_eq_some hbook).1
  rw [handle, handleBookRequest_handlers] at hmem htop
  exact ⟨_, registered, hsent, hmem, htop.mpr (Or.inl (hrun.2 registered hmem))⟩

/-- Of 201 bids at different prices the best is not shown. -/
theorem snapshot_misses_best_bid :
    ∃ sent registered, .bookSnapshot sent ∈
        ((afterRisingBids 201).handle (.requestBook (some "AAPL".toList))).2 ∧
      (∃ index, (afterRisingBids 201).findBook "AAPL".toList = some (index, registered)) ∧
      ¬ ShowsTop ((afterRisingBids 201).engine registered.book) sent := by
  have hrun : ((afterRisingBids 201).findBook "AAPL".toList).isSome ∧
      ∀ registered ∈ (afterRisingBids 201).books,
        let bids := liveOrders (afterRisingBids 201).orders registered.book.buyOrders
        ¬ (bids.length ≤ 200 ∨ ∀ first ∈ bids, ∀ second ∈ bids,
          ((afterRisingBids 201).orders first).price =
            ((afterRisingBids 201).orders second).price) := by
    decide +kernel
  obtain ⟨found, hfound⟩ := Option.isSome_iff_exists.mp hrun.1
  have hmem := List.mem_of_getElem? (findBook_eq_some hfound).1
  refine ⟨_, found.2, mem_handle_requestBook hfound, ⟨found.1, hfound⟩, fun htop => ?_⟩
  exact hrun.2 found.2 hmem (((afterRisingBids_settled 201).showsTop_iff hfound).mp htop)

end ServerHandlers

end QuantTrading
