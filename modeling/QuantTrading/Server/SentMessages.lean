import QuantTrading.Server.Snapshots
import QuantTrading.Server.StoredOrders

/-! # What the messages of the server are made of

The server invents nothing: a trade names two orders that were placed, with the price of
one and a part of the quantity of both, and a level of a snapshot shows a part of an order
that was placed. The property of the placed orders is a parameter.
-/

namespace QuantTrading

variable {α : Type*} {keeps : OrderMessage α → Prop}

/-- An order that was placed, and of which nothing was added. -/
structure Order.PlacedAs (keeps : OrderMessage α → Prop) (order : Order α) : Prop where
  message : keeps order.message
  remaining_le : order.remainingQuantity ≤ order.quantity

/-- A trade between two placed orders. -/
structure TradeEvent.Between {ι : Type*} (event : TradeEvent α ι) (buy sell : OrderMessage α) :
    Prop where
  symbol : event.symbol = buy.symbol
  buyOrderId : event.buyOrderId = buy.orderId
  sellOrderId : event.sellOrderId = sell.orderId
  price : event.price = sell.price
  quantity_pos : 0 < event.quantity
  quantity_le : event.quantity ≤ buy.quantity ∧ event.quantity ≤ sell.quantity

/-- A level that shows a part of an order. -/
structure ShowsPart (level : α × Int) (order : OrderMessage α) : Prop where
  price : level.1 = order.price
  quantity_pos : 0 < level.2
  quantity_le : level.2 ≤ order.quantity

/-- A snapshot of placed orders, under the symbol of one of them. -/
structure BookSnapshot.MadeOf (keeps : OrderMessage α → Prop) (sent : BookSnapshot α) : Prop where
  symbol : ∃ order, keeps order ∧ sent.symbol = order.symbol.take 15
  bids : ∀ level ∈ sent.bids, ∃ order, keeps order ∧ ShowsPart level order
  asks : ∀ level ∈ sent.asks, ∃ order, keeps order ∧ ShowsPart level order

theorem Order.PlacedAs.create {message : OrderMessage α} {now : Int} {order : Order α}
    (hcreate : Order.create message.orderId message.traderId message.symbol message.price
      message.quantity message.isBuy now = some order) (hkeeps : keeps message) :
    order.PlacedAs keeps := by
  refine ⟨Order.create_message hcreate ▸ hkeeps, ?_⟩
  unfold Order.create at hcreate
  split_ifs at hcreate
  cases hcreate
  exact le_rfl

/-- Less of the same order. -/
theorem Order.PlacedAs.reduced {first second : Order α} (hmade : first.PlacedAs keeps)
    (hterms : second.terms = first.terms)
    (hremaining : second.remainingQuantity ≤ first.remainingQuantity) :
    second.PlacedAs keeps := by
  have hmessage : second.message = first.message := by
    rw [← Order.terms_message, hterms, Order.terms_message]
  have hquantity : second.quantity = first.quantity := congrArg OrderMessage.quantity hmessage
  refine ⟨hmessage ▸ hmade.message, ?_⟩
  rw [hquantity]
  exact hremaining.trans hmade.remaining_le

/-! ## One book -/

namespace Engine

variable [LT α] [DecidableLT α] [BEq α] {ι : Type*}

/-- A book of placed orders that has sent only trades between placed orders. The orders
that are stored are among the allocated ones. -/
structure MadeOf (keeps : OrderMessage α → Prop) (allocated : ι → Prop) (state : Engine α ι) :
    Prop where
  aligned : state.Aligned
  stored : ∀ order ∈ state.storedOrders, allocated order
  orders : ∀ order, allocated order → (state.orders order).PlacedAs keeps
  trades : ∀ event ∈ state.trades, ∃ buy sell, keeps buy ∧ keeps sell ∧ event.Between buy sell

namespace MadeOf

variable {allocated : ι → Prop} {state state' : Engine α ι}

/-- A trade between placed orders, which are reduced. -/
theorem traded [DecidableEq ι] (hmade : state.MadeOf keeps allocated) {buy sell : ι}
    (htraded : Traded state state' buy sell) : state'.MadeOf keeps allocated := by
  have hbuy := hmade.orders buy
    (hmade.stored buy (mem_storedOrders.mpr (Or.inl htraded.buy_mem)))
  have hsell := hmade.orders sell
    (hmade.stored sell (mem_storedOrders.mpr (Or.inr htraded.sell_mem)))
  have hquantity := state.matchQuantity_eq_min buy sell
  have hpos := htraded.quantity_pos.1
  have hleBuy := hbuy.remaining_le
  have hleSell := hsell.remaining_le
  refine ⟨htraded.aligned hmade.aligned, ?_, ?_, ?_⟩
  · exact fun order horder => hmade.stored order (htraded.mem_storedOrders horder)
  · intro order horder
    refine (hmade.orders order horder).reduced (htraded.sameTerms order) ?_
    by_cases hisBuy : order = buy
    · subst hisBuy
      rw [htraded.buyAfter]
      dsimp only
      omega
    · by_cases hisSell : order = sell
      · subst hisSell
        rw [htraded.sellAfter]
        dsimp only
        omega
      · rw [htraded.others order hisBuy hisSell]
  · rw [htraded.trades]
    intro event hevent
    rcases List.mem_append.mp hevent with hold | hnew
    · exact hmade.trades event hold
    · rw [List.mem_singleton.mp hnew]
      refine ⟨_, _, hbuy.message, hsell.message, rfl, rfl, rfl, rfl, hpos, ?_, ?_⟩
      · change state.matchQuantity buy sell ≤ (state.orders buy).quantity
        omega
      · change state.matchQuantity buy sell ≤ (state.orders sell).quantity
        omega

theorem matchOrders [DecidableEq ι] (hmade : state.MadeOf keeps allocated) :
    state.matchOrders.MadeOf keeps allocated := by
  refine matchOrders_invariant (MadeOf keeps allocated) (fun current next hcurrent hnext => ?_)
    hmade
  obtain ⟨buy, sell, htraded⟩ := hcurrent.aligned.traded hnext
  exact hcurrent.traded htraded

theorem addOrder [DecidableEq ι] (hmade : state.MadeOf keeps allocated) {order : ι}
    (horder : allocated order) : (state.addOrder order).2.MadeOf keeps allocated := by
  refine ⟨hmade.aligned.perform (.add order), ?_, ?_, ?_⟩
  · intro other hother
    rcases mem_storedOrders_of_addOrder hother with rfl | hold
    · exact horder
    · exact hmade.stored other hold
  · rw [addOrder_orders]
    exact hmade.orders
  · rw [addOrder_eq]
    exact hmade.trades

omit [LT α] [DecidableLT α] [BEq α] in
/-- A cancellation changes only the mark. -/
theorem cancel [DecidableEq ι] (hmade : state.MadeOf keeps allocated) (order : ι) :
    MadeOf keeps allocated
      { state with orders := Function.update state.orders order (state.orders order).cancel } := by
  have hsame : SameTerms state.orders
      (Function.update state.orders order (state.orders order).cancel) :=
    (SameTerms.refl state.orders).update (Order.terms_cancel _)
  have haligned := hmade.aligned
  refine ⟨⟨hsame.aligned haligned.buy, hsame.aligned haligned.sell⟩, hmade.stored,
    fun other hother => ?_, hmade.trades⟩
  refine (hmade.orders other hother).reduced (hsame other) ?_
  by_cases hother : other = order
  · subst hother
    dsimp only
    rw [Function.update_self, Order.cancel_eq]
  · dsimp only
    rw [Function.update_of_ne hother]

end MadeOf

omit [LT α] [DecidableLT α] [BEq α] in
/-- The level of a live order shows a part of it. -/
theorem MadeOf.level {allocated : Nat → Prop} {state : Engine α Nat}
    (hmade : state.MadeOf keeps allocated) {tree : AVLTree α Nat}
    (htree : ∀ order ∈ tree.orders, order ∈ state.storedOrders) {level : α × Int}
    (hlevel : level ∈ ((liveOrders state.orders tree).take 200).map (levelOf state.orders)) :
    ∃ order, keeps order ∧ ShowsPart level order := by
  obtain ⟨order, hshown, rfl⟩ := List.mem_map.mp hlevel
  obtain ⟨hmem, hlive⟩ := List.mem_filter.mp (List.mem_of_mem_take hshown)
  have horder := hmade.orders order (hmade.stored order (htree order hmem))
  exact ⟨_, horder.message, rfl, (of_decide_eq_true hlive).2, horder.remaining_le⟩

omit [LT α] [DecidableLT α] [BEq α] in
/-- A snapshot of a book of placed orders, under the symbol of one. -/
theorem MadeOf.snapshot {allocated : Nat → Prop} {state : Engine α Nat}
    (hmade : state.MadeOf keeps allocated) {symbol : CString}
    (hsymbol : ∃ order, keeps order ∧ symbol.take 15 = order.symbol.take 15) :
    (ServerHandlers.snapshot state.orders symbol state.book).MadeOf keeps := by
  rw [snapshot_eq hmade.aligned]
  refine ⟨hsymbol, ?_, ?_⟩
  · exact fun level => hmade.level fun order horder => mem_storedOrders.mpr (Or.inl horder)
  · exact fun level => hmade.level fun order horder => mem_storedOrders.mpr (Or.inr horder)

end Engine

/-! ## The server -/

namespace ServerHandlers

variable [LT α] [DecidableLT α] [BEq α]

/-- Handlers that hold placed orders, in books named after placed orders. -/
structure MadeOf (keeps : OrderMessage α → Prop) (handlers : ServerHandlers α) : Prop where
  stored : handlers.Stored fun _ _ => True
  symbols : ∀ registered ∈ handlers.books,
    ∃ order, keeps order ∧ registered.symbol = order.symbol.take 15
  orders : ∀ order < handlers.nextAddress, (handlers.orders order).PlacedAs keeps
  trades : ∀ event ∈ handlers.trades, ∃ buy sell, keeps buy ∧ keeps sell ∧ event.Between buy sell

omit [LT α] [DecidableLT α] [BEq α] in
/-- A message that places an order with the property, or none. -/
def PlacesWith (keeps : OrderMessage α → Prop) (call : ClientMessage α) : Prop :=
  ∀ created confirmed order, call = .placeOrder created confirmed (some order) → keeps order

namespace MadeOf

variable {handlers : ServerHandlers α}

omit [LT α] [DecidableLT α] [BEq α] in
theorem create (orders : Nat → Order α) (broadcaster : Option TradeBroadcaster) :
    (ServerHandlers.create orders broadcaster).MadeOf keeps :=
  ⟨.create orders broadcaster, by simp [ServerHandlers.create], by simp [ServerHandlers.create],
    by simp [ServerHandlers.create]⟩

omit [LT α] [DecidableLT α] [BEq α] in
theorem engine (hmade : handlers.MadeOf keeps) {registered : RegisteredBook α}
    (hregistered : registered ∈ handlers.books) :
    (handlers.engine registered.book).MadeOf keeps (· < handlers.nextAddress) :=
  ⟨hmade.stored.aligned registered hregistered,
    hmade.stored.allocated registered hregistered, hmade.orders, hmade.trades⟩

omit [LT α] [DecidableLT α] [BEq α] in
/-- Replacing the book at an index. -/
theorem update (hmade : handlers.MadeOf keeps) {index : Nat} {registered : RegisteredBook α}
    (hindex : handlers.books[index]? = some registered) {after : Engine α Nat}
    {nextAddress : Nat} (hafter : after.MadeOf keeps (· < nextAddress))
    (hstored : Stored (fun _ _ => True)
      { handlers.update index registered after with nextAddress := nextAddress }) :
    MadeOf keeps
      { handlers.update index registered after with nextAddress := nextAddress } := by
  refine ⟨hstored, ?_, hafter.orders, hafter.trades⟩
  intro entry hentry
  rcases List.mem_or_eq_of_mem_set hentry with hold | rfl
  · exact hmade.symbols entry hold
  · exact hmade.symbols registered (List.mem_of_getElem? hindex)

omit [LT α] [DecidableLT α] [BEq α] in
theorem findOrCreateBook (hmade : handlers.MadeOf keeps) {order : OrderMessage α}
    (horder : keeps order) {found : Option (Nat × RegisteredBook α)}
    {after : ServerHandlers α} (hfind : handlers.findOrCreateBook order.symbol = (found, after)) :
    after.MadeOf keeps := by
  have hstored := hmade.stored.findOrCreateBook hfind
  rcases (findOrCreateBook_spec hfind).1 with rfl | rfl
  · exact hmade
  · refine ⟨hstored, ?_, hmade.orders, hmade.trades⟩
    intro registered hregistered
    rcases List.mem_append.mp hregistered with hold | hnew
    · exact hmade.symbols registered hold
    · rw [List.mem_singleton.mp hnew]
      exact ⟨order, horder, rfl⟩

/-- The book that a placed order is added to and matched in. -/
theorem addAndMatch (hmade : handlers.MadeOf keeps) {registered : RegisteredBook α}
    (hregistered : registered ∈ handlers.books) {newOrder : Order α}
    (hnew : newOrder.PlacedAs keeps) :
    (handlers.addAndMatch registered.book newOrder).MadeOf keeps
      (· < handlers.nextAddress + 1) := by
  have haligned := hmade.stored.aligned registered hregistered
  have hkept : ∀ order ∈ registered.storedOrders,
      Function.update handlers.orders handlers.nextAddress newOrder order =
        handlers.orders order :=
    fun order horder => Function.update_of_ne
      (hmade.stored.allocated registered hregistered order horder).ne _ _
  have hallocated : Engine.MadeOf keeps (· < handlers.nextAddress + 1)
      { orders := Function.update handlers.orders handlers.nextAddress newOrder
        book := registered.book
        trades := handlers.trades } := by
    refine ⟨⟨?_, ?_⟩, ?_, ?_, hmade.trades⟩
    · exact haligned.buy.congr fun order horder => hkept order (List.mem_append_left _ horder)
    · exact haligned.sell.congr fun order horder => hkept order (List.mem_append_right _ horder)
    · exact fun order horder =>
        (hmade.stored.allocated registered hregistered order horder).trans (Nat.lt_succ_self _)
    · intro order horder
      rcases Nat.lt_succ_iff_lt_or_eq.mp horder with hlt | rfl
      · dsimp only
        rw [Function.update_of_ne hlt.ne]
        exact hmade.orders order hlt
      · dsimp only
        rw [Function.update_self]
        exact hnew
  exact (hallocated.addOrder (Nat.lt_succ_self _)).matchOrders

theorem handle (hmade : handlers.MadeOf keeps) {call : ClientMessage α}
    (hcall : PlacesWith keeps call) : (handlers.handle call).1.MadeOf keeps := by
  have hstored : Stored (fun _ _ => True) (handlers.handle call).1 :=
    hmade.stored.handle fun _ _ _ _ _ _ => trivial
  cases call with
  | placeOrder created confirmed message =>
      rcases handlers.handlePlaceOrder_cases created confirmed message with
        ⟨reason, hresult⟩ | ⟨order, found, after, rfl, hfind, hcases⟩
      · rw [ServerHandlers.handle, hresult]
        exact hmade
      have horder := hcall created confirmed order rfl
      have hafter := hmade.findOrCreateBook horder hfind
      rcases hcases with ⟨reason, hresult⟩ | ⟨index, registered, newOrder, rfl, hcreate, hresult⟩
      · rw [ServerHandlers.handle, hresult]
        exact hafter
      · rw [ServerHandlers.handle, hresult] at hstored ⊢
        have hindex := ((findOrCreateBook_spec hfind).2 index registered rfl).1
        exact hafter.update hindex
          (hafter.addAndMatch (List.mem_of_getElem? hindex) (.create hcreate horder)) hstored
  | cancelOrder confirmed request =>
      rcases handlers.handleCancelOrder_cases confirmed request with
        ⟨-, reason, hresult⟩ | ⟨target, registered, -, hindex, ⟨-, hresult⟩ |
          ⟨order, symbol, -, hresult⟩⟩
      · rw [ServerHandlers.handle, hresult]
        exact hmade
      · rw [ServerHandlers.handle, hresult]
        exact hmade
      · rw [ServerHandlers.handle, hresult] at hstored ⊢
        have hengine := hmade.engine (List.mem_of_getElem? hindex)
        exact hmade.update hindex (hengine.cancel order) hstored
  | requestBook symbol =>
      rw [ServerHandlers.handle, handleBookRequest_handlers]
      exact hmade

omit [LT α] [DecidableLT α] [BEq α] in
/-- A snapshot of a book that was found. -/
theorem shown (hmade : handlers.MadeOf keeps) {symbol : CString} {index : Nat}
    {registered : RegisteredBook α}
    (hfound : handlers.findBook symbol = some (index, registered)) :
    (ServerHandlers.snapshot handlers.orders symbol registered.book).MadeOf keeps := by
  obtain ⟨hindex, hregistered⟩ := findBook_eq_some hfound
  have hmem := List.mem_of_getElem? hindex
  obtain ⟨order, horder, hsymbol⟩ := hmade.symbols registered hmem
  refine (hmade.engine hmem).snapshot ⟨order, horder, ?_⟩
  rw [← hregistered, hsymbol, List.take_take, min_self]

end MadeOf

/-- What is sent by a call that places an order with the property, or none. -/
theorem MadeOf.sends {β : Type*} [LinearOrder β] {keeps : OrderMessage β → Prop}
    {handlers after : ServerHandlers β} (hmade : handlers.MadeOf keeps)
    {call : ClientMessage β} {responses : List (Response β)} (hcall : PlacesWith keeps call)
    (hresult : handlers.handle call = (after, responses)) :
    after.MadeOf keeps ∧ ∀ sent, .bookSnapshot sent ∈ responses → sent.MadeOf keeps := by
  have hafter := hmade.handle hcall
  rw [hresult] at hafter
  refine ⟨hafter, fun sent hsent => ?_⟩
  have hmem : .bookSnapshot sent ∈ (handlers.handle call).2 := by rwa [hresult]
  have hshown := handle_snapshot hmem
  rw [hresult] at hshown
  obtain ⟨symbol, index, registered, _, hfound, htaken⟩ := hshown
  rw [htaken]
  exact hafter.shown hfound

end ServerHandlers

end QuantTrading
