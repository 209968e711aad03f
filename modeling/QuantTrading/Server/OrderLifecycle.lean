import QuantTrading.Engine.Fills
import QuantTrading.Engine.Placement
import QuantTrading.Server.OrderAddressing

/-! # The life of an order as its client sees it

A client hears of an order when it trades and when its cancellation is confirmed. The
confirmation depends on the search in the tree only: `order_cancel` does nothing to an
order that is cancelled already, and cancelled orders stay in their tree. A filled
order has left it.
-/

namespace QuantTrading

variable {α : Type*}

/-- What clients hear of orders: a trade, or the confirmation of a cancellation with
the order on whose account it is sent. -/
inductive LifeEvent (α : Type*) where
  | traded (event : TradeEvent α Nat) : LifeEvent α
  | canceled (order : Nat) : LifeEvent α
deriving DecidableEq

/-- The trade of an event. -/
def LifeEvent.trade? : LifeEvent α → Option (TradeEvent α Nat)
  | .traded event => some event
  | .canceled _ => none

/-- The trades among some events, in order. -/
def tradesOf (events : List (LifeEvent α)) : List (TradeEvent α Nat) :=
  events.filterMap LifeEvent.trade?

/-- The server with what clients have heard so far. -/
structure LifeHistory (α : Type*) where
  handlers : ServerHandlers α
  events : List (LifeEvent α)

/-- A confirmation of type `MSG_ORDER_CANCELED` is among the responses. -/
def confirmsCancel (responses : List (Response α)) : Bool :=
  responses.any fun response =>
    match response with
    | .orderCanceled _ _ _ => true
    | _ => false

/-- The trades say that the order has been completely filled. -/
def FilledBy (trades : List (TradeEvent α Nat)) (order : Nat) (record : Order α) : Prop :=
  (∃ event ∈ trades, event.Names order) ∧ tradedQuantity trades order = record.quantity

namespace ServerHandlers

variable [LT α] [DecidableLT α] [BEq α]

/-- The order that the search of `order_book_cancel_order` finds for a cancel message. -/
def cancelFound (handlers : ServerHandlers α) (request : CancelRequest) : Option Nat :=
  (handlers.cancelTarget request).bind fun target =>
    handlers.books[target.index]?.bind fun registered =>
      Engine.searchById handlers.orders target.orderId target.isBuyOrder
        (registered.book.side target.isBuyOrder).root

/-- A cancel message cancels the order that is found and confirms it; when there is
none it changes nothing, and is answered with an error. -/
theorem cancelFound_cases (handlers : ServerHandlers α) (confirmed : Int)
    (request : CancelRequest) :
    let result := handlers.handleCancelOrder confirmed request
    (handlers.cancelFound request = none ∧ result.1 = handlers ∧
      confirmsCancel result.2 = false ∧
      ∀ target, handlers.cancelTarget request = some target →
        result.2 = [.error "Order not found or already canceled"]) ∨
    ∃ order target registered, handlers.cancelFound request = some order ∧
      handlers.cancelTarget request = some target ∧
      handlers.books[target.index]? = some registered ∧
      Engine.searchById handlers.orders target.orderId target.isBuyOrder
        (registered.book.side target.isBuyOrder).root = some order ∧
      confirmsCancel result.2 = true ∧
      result.1 = handlers.update target.index registered
        { handlers.engine registered.book with
          orders := Function.update handlers.orders order (handlers.orders order).cancel } := by
  intro result
  unfold cancelFound
  rcases handlers.handleCancelOrder_cases confirmed request with
    ⟨htarget, reason, hresult⟩ | ⟨target, registered, htarget, hindex, ⟨hsearch, hresult⟩ |
      ⟨order, symbol, hsearch, hresult⟩⟩
  · left
    have hreturned : result = (handlers, [.error reason]) := hresult
    rw [hreturned, htarget]
    exact ⟨rfl, rfl, rfl, nofun⟩
  · left
    have hreturned : result = (handlers, [.error "Order not found or already canceled"]) := hresult
    rw [hreturned, htarget, Option.bind_some, hindex, Option.bind_some]
    exact ⟨hsearch, rfl, rfl, fun _ _ => rfl⟩
  · right
    refine ⟨order, target, registered, ?_, htarget, hindex, hsearch, ?_, ?_⟩
    · rw [htarget, Option.bind_some, hindex, Option.bind_some, hsearch]
    · simp only [result, hresult]
      rfl
    · simp only [result, hresult]

end ServerHandlers

namespace LifeHistory

variable [LT α] [DecidableLT α] [BEq α]

/-- The confirmations sent for a message, by the order on whose account they are sent. -/
def confirmations (handlers : ServerHandlers α) (message : ClientMessage α) : List (LifeEvent α) :=
  match message with
  | .cancelOrder confirmed request =>
      if confirmsCancel (handlers.handleCancelOrder confirmed request).2 then
        (handlers.cancelFound request).toList.map .canceled
      else []
  | _ => []

/-- One message: its trades, and the confirmation of its cancellation. -/
def step (history : LifeHistory α) (message : ClientMessage α) : LifeHistory α :=
  let after := (history.handlers.handle message).1
  { handlers := after
    events := history.events ++
      (after.trades.drop history.handlers.trades.length).map .traded ++
      confirmations history.handlers message }

/-- The server before any message. -/
def create (orders : Nat → Order α) (broadcaster : Option TradeBroadcaster) : LifeHistory α where
  handlers := ServerHandlers.create orders broadcaster
  events := []

/-- The search for a cancel message finds no order that is cancelled already. -/
def FindsActive (history : LifeHistory α) : ClientMessage α → Prop
  | .cancelOrder _ request => ∀ order, history.handlers.cancelFound request = some order →
      (history.handlers.orders order).isCanceled = false
  | _ => True

/-- A cancel message that names only orders already cancelled or completely filled is
answered with the error. -/
def Answers (history : LifeHistory α) : ClientMessage α → Prop
  | .cancelOrder confirmed request => ∀ target,
      history.handlers.cancelTarget request = some target →
      (∀ order < history.handlers.nextAddress,
        (history.handlers.orders order).orderId = target.orderId →
          .canceled order ∈ history.events ∨
            FilledBy (tradesOf history.events) order (history.handlers.orders order)) →
      (history.handlers.handleCancelOrder confirmed request).2 =
        [.error "Order not found or already canceled"]
  | _ => True

/-- No trade names an order after the confirmation of its cancellation. -/
def Untraded (events : List (LifeEvent α)) : Prop :=
  events.Pairwise fun first second => ∀ order event, first = .canceled order →
    second = .traded event → ¬ event.Names order

/-- No cancellation is confirmed on account of an order after it was filled. -/
def Unfilled (orders : Nat → Order α) (events : List (LifeEvent α)) : Prop :=
  ∀ index order, events[index]? = some (.canceled order) →
    ¬ FilledBy (tradesOf (events.take index)) order (orders order)

end LifeHistory

theorem tradesOf_append (first second : List (LifeEvent α)) :
    tradesOf (first ++ second) = tradesOf first ++ tradesOf second :=
  List.filterMap_append

theorem tradesOf_traded (trades : List (TradeEvent α Nat)) :
    tradesOf (trades.map LifeEvent.traded) = trades := by
  rw [tradesOf, List.filterMap_map]
  exact List.filterMap_some

namespace ServerHandlers

variable [LinearOrder α]

/-- No order on the side of a created order in a book has its key. -/
def FreeKey (handlers : ServerHandlers α) (registered : RegisteredBook α)
    (newOrder : Order α) : Prop :=
  ∀ other ∈ (registered.book.side newOrder.isBuyOrder).orders,
    ¬ newOrder.SameKey (handlers.orders other)

/-- A created order was added to a registered book, which was matched then. -/
structure Placed (handlers : ServerHandlers α) (registered : RegisteredBook α)
    (newOrder : Order α) (added after : Engine α Nat) : Prop where
  created : added.orders handlers.nextAddress = newOrder
  others : ∀ order, order ≠ handlers.nextAddress →
    added.orders order = handlers.orders order
  trades_eq : added.trades = handlers.trades
  stored : ∀ order ∈ added.storedOrders, order = handlers.nextAddress ∨
    order ∈ registered.storedOrders
  kept : ∀ order ∈ registered.storedOrders, order ∈ added.storedOrders
  arrives_iff : handlers.nextAddress ∈ added.storedOrders ↔
    handlers.FreeKey registered newOrder
  matched : Engine.Matched added after

theorem Settled.placed {handlers : ServerHandlers α} (hsettled : handlers.Settled)
    {index : Nat} {registered : RegisteredBook α}
    (hindex : handlers.books[index]? = some registered) (newOrder : Order α) :
    ∃ added, handlers.Placed registered newOrder added
      (handlers.addAndMatch registered.book newOrder) := by
  let allocated : Engine α Nat :=
    { orders := Function.update handlers.orders handlers.nextAddress newOrder
      book := registered.book
      trades := handlers.trades }
  have hallocated : Engine.Settled registered.symbol allocated := by
    refine (hsettled.books index registered hindex).congr rfl fun order horder => ?_
    exact Function.update_of_ne (hsettled.allocated index registered hindex order horder).ne _ _
  have hordered := hallocated.ordered.perform (.add handlers.nextAddress)
  have horders := Engine.addOrder_orders allocated handlers.nextAddress
  have hnew : allocated.orders handlers.nextAddress = newOrder := Function.update_self ..
  refine ⟨(allocated.addOrder handlers.nextAddress).2, ?_, ?_, ?_, ?_, ?_, ?_, hordered.matched⟩
  · rw [horders, hnew]
  · intro order hne
    rw [horders]
    exact Function.update_of_ne hne ..
  · rw [Engine.addOrder_eq]
  · exact fun order horder => Engine.mem_storedOrders_of_addOrder horder
  · intro order horder
    have hstored : order ∈ allocated.storedOrders := horder
    obtain ⟨isBuyOrder, hside⟩ := Engine.mem_storedOrders_iff_side.mp hstored
    refine Engine.mem_storedOrders_iff_side.mpr ⟨isBuyOrder, ?_⟩
    rw [Engine.addOrder_side]
    split_ifs
    · exact AVLTree.mem_orders_insert_of_mem hside
    · exact hside
  · -- every order of the side is at another address
    rw [hallocated.ordered.mem_addOrder_iff, Engine.KeyFree, hnew]
    refine forall₂_congr fun other hother => ?_
    have hstored : other ∈ allocated.storedOrders :=
      Engine.mem_storedOrders_iff_side.mpr ⟨newOrder.isBuyOrder, hother⟩
    have hne := (hsettled.allocated index registered hindex other hstored).ne
    rw [show allocated.orders other = handlers.orders other from Function.update_of_ne hne _ _]
    exact forall_prop_of_true hne

/-- The order found for a cancel message is stored in the book and has the id. -/
theorem Settled.searchById_spec {handlers : ServerHandlers α} (hsettled : handlers.Settled)
    {index : Nat} {registered : RegisteredBook α}
    (hindex : handlers.books[index]? = some registered) {orderId : CString} {isBuyOrder : Bool}
    {order : Nat}
    (hsearch : Engine.searchById handlers.orders orderId isBuyOrder
      (registered.book.side isBuyOrder).root = some order) :
    order ∈ registered.storedOrders ∧ (handlers.orders order).orderId = orderId := by
  have haligned := (hsettled.books index registered hindex).ordered.aligned
  obtain ⟨hmem, hid⟩ := haligned.searchById_spec hsearch
  have hstored : order ∈ (handlers.engine registered.book).storedOrders :=
    Engine.mem_storedOrders_iff_side.mpr ⟨isBuyOrder, hmem⟩
  exact ⟨hstored, hid⟩

end ServerHandlers

namespace LifeHistory

variable [LinearOrder α]

/-- What the messages maintain. The cancellation mark of an order is its confirmation;
the trades account for what an order has lost; and a stored order has something left,
unless it was placed with nothing. -/
structure Tracked (handlers : ServerHandlers α) (events : List (LifeEvent α)) : Prop where
  settled : handlers.Settled
  trades_eq : tradesOf events = handlers.trades
  canceled_iff : ∀ order, .canceled order ∈ events ↔
    order < handlers.nextAddress ∧ (handlers.orders order).isCanceled = true
  sound : ∀ event ∈ handlers.trades, 0 < event.quantity ∧
    ∀ order, event.Names order → order < handlers.nextAddress
  balance : ∀ order < handlers.nextAddress, tradedQuantity handlers.trades order +
    (handlers.orders order).remainingQuantity = (handlers.orders order).quantity
  resting : ∀ (index : Nat) (registered : RegisteredBook α),
    handlers.books[index]? = some registered → ∀ order ∈ registered.storedOrders,
      (handlers.orders order).remainingQuantity = 0 → (handlers.orders order).quantity = 0
  untraded : Untraded events
  unfilled : Unfilled handlers.orders events

theorem create_tracked (orders : Nat → Order α) (broadcaster : Option TradeBroadcaster) :
    Tracked (ServerHandlers.create orders broadcaster) [] where
  settled := ServerHandlers.create_settled orders broadcaster
  trades_eq := rfl
  canceled_iff := by simp [ServerHandlers.create]
  sound := nofun
  balance := nofun
  resting := by simp [ServerHandlers.create]
  untraded := .nil
  unfilled := nofun

namespace Tracked

variable {handlers : ServerHandlers α} {events : List (LifeEvent α)}

/-- Registering an empty book. -/
theorem register (htracked : Tracked handlers events) (symbol : CString) :
    Tracked { handlers with
      books := handlers.books ++ [{ symbol := symbol, book := OrderBook.empty }] } events := by
  refine ⟨htracked.settled.register symbol, htracked.trades_eq, htracked.canceled_iff,
    htracked.sound, htracked.balance, ?_, htracked.untraded, htracked.unfilled⟩
  intro index registered hindex order horder
  rcases List.mem_append.mp (List.mem_of_getElem? hindex) with hold | hnew
  · obtain ⟨position, hposition⟩ := List.mem_iff_getElem?.mp hold
    exact htracked.resting position registered hposition order horder
  · rw [List.mem_singleton.mp hnew] at horder
    exact absurd horder List.not_mem_nil

theorem findOrCreateBook (htracked : Tracked handlers events) {symbol : CString}
    {found : Option (Nat × RegisteredBook α)} {after : ServerHandlers α}
    (hfind : handlers.findOrCreateBook symbol = (found, after)) : Tracked after events := by
  rcases (ServerHandlers.findOrCreateBook_spec hfind).1 with rfl | rfl
  · exact htracked
  · exact htracked.register (symbol.take 15)

/-- Events behind do not concern the confirmations before them. -/
theorem unfilled_append (htracked : Tracked handlers events) {orders : Nat → Order α}
    (hsame : ∀ order < handlers.nextAddress,
      (orders order).quantity = (handlers.orders order).quantity)
    {more : List (LifeEvent α)}
    (hmore : ∀ order, .canceled order ∈ more → more = [.canceled order] ∧
      ¬ FilledBy handlers.trades order (orders order)) :
    Unfilled orders (events ++ more) := by
  intro index order hindex
  by_cases hlt : index < events.length
  · rw [List.getElem?_append_left hlt] at hindex
    have hallocated := ((htracked.canceled_iff order).mp (List.mem_of_getElem? hindex)).1
    rw [List.take_append_of_le_length hlt.le, FilledBy, hsame order hallocated]
    exact htracked.unfilled index order hindex
  · rw [List.getElem?_append_right (Nat.le_of_not_lt hlt)] at hindex
    obtain ⟨hsingle, hnotFilled⟩ := hmore order (List.mem_of_getElem? hindex)
    obtain ⟨hbound, _⟩ := List.getElem?_eq_some_iff.mp hindex
    rw [hsingle, List.length_singleton] at hbound
    rw [show index = events.length by omega, List.take_left, htracked.trades_eq]
    exact hnotFilled

/-- An order that is stored in a book has not been filled. -/
theorem not_filled (htracked : Tracked handlers events) {index : Nat}
    {registered : RegisteredBook α} (hindex : handlers.books[index]? = some registered)
    {order : Nat} (hstored : order ∈ registered.storedOrders) :
    ¬ FilledBy handlers.trades order (handlers.orders order) := by
  rintro ⟨⟨event, hevent, hnames⟩, hfilled⟩
  have hallocated := htracked.settled.allocated index registered hindex order hstored
  have hpos := tradedQuantity_pos (fun event hevent => (htracked.sound event hevent).1) hevent
    hnames
  have hbalance := htracked.balance order hallocated
  have hempty := htracked.resting index registered hindex order hstored (by omega)
  omega

section Placing

variable {index : Nat} {registered : RegisteredBook α} {newOrder : Order α}
  {added after : Engine α Nat}

theorem placed_lt (htracked : Tracked handlers events)
    (hindex : handlers.books[index]? = some registered)
    (hplaced : handlers.Placed registered newOrder added after) :
    ∀ order ∈ added.storedOrders, order < handlers.nextAddress + 1 := by
  intro order horder
  rcases hplaced.stored order horder with rfl | hregistered
  · exact Nat.lt_succ_self _
  · exact (htracked.settled.allocated index registered hindex order hregistered).trans
      (Nat.lt_succ_self _)

/-- The new order is not cancelled, and matching cancels nothing. -/
theorem placed_canceled_iff (htracked : Tracked handlers events)
    (hplaced : handlers.Placed registered newOrder added after) (hfresh : newOrder.Fresh)
    (order : Nat) :
    .canceled order ∈ events ↔
      order < handlers.nextAddress + 1 ∧ (after.orders order).isCanceled = true := by
  rw [htracked.canceled_iff, hplaced.matched.canceled]
  by_cases hlast : order = handlers.nextAddress
  · subst hlast
    rw [hplaced.created, hfresh.active]
    simp
  · rw [hplaced.others order hlast, Nat.lt_succ_iff_lt_or_eq, or_iff_left hlast]

theorem placed_sound (htracked : Tracked handlers events)
    (hindex : handlers.books[index]? = some registered)
    (hplaced : handlers.Placed registered newOrder added after) :
    ∀ event ∈ after.trades, 0 < event.quantity ∧
      ∀ order, event.Names order → order < handlers.nextAddress + 1 := by
  obtain ⟨more, hmore, hsound⟩ := hplaced.matched.trades
  intro event hevent
  rw [hmore, hplaced.trades_eq] at hevent
  rcases List.mem_append.mp hevent with hearlier | hlater
  · obtain ⟨hpos, hnames⟩ := htracked.sound event hearlier
    exact ⟨hpos, fun order hname => (hnames order hname).trans (Nat.lt_succ_self _)⟩
  · obtain ⟨hpos, hnames⟩ := hsound event hlater
    exact ⟨hpos, fun order hname =>
      htracked.placed_lt hindex hplaced order (hnames order hname).1⟩

theorem placed_balance (htracked : Tracked handlers events)
    (hplaced : handlers.Placed registered newOrder added after) (hfresh : newOrder.Fresh)
    {order : Nat} (hlt : order < handlers.nextAddress + 1) :
    tradedQuantity after.trades order + (after.orders order).remainingQuantity =
      (after.orders order).quantity := by
  rw [hplaced.matched.balance, hplaced.matched.sameTerms.quantity, hplaced.trades_eq]
  by_cases hlast : order = handlers.nextAddress
  · subst hlast
    rw [hplaced.created, hfresh.unfilled, tradedQuantity_of_unnamed, Int.zero_add]
    exact fun event hevent hname => ((htracked.sound event hevent).2 _ hname).false
  · rw [hplaced.others order hlast]
    exact htracked.balance order (Nat.lt_of_le_of_ne (Nat.le_of_lt_succ hlt) hlast)

theorem placed_resting (htracked : Tracked handlers events)
    (hindex : handlers.books[index]? = some registered)
    (hplaced : handlers.Placed registered newOrder added after) (hfresh : newOrder.Fresh)
    {position : Nat} {entry : RegisteredBook α}
    (hposition : (handlers.update index registered after).books[position]? = some entry)
    {order : Nat} (horder : order ∈ entry.storedOrders)
    (hzero : (after.orders order).remainingQuantity = 0) : (after.orders order).quantity = 0 := by
  have hsettled := htracked.settled
  rw [hplaced.matched.sameTerms.quantity]
  rcases ServerHandlers.getElem?_set_cases hposition with ⟨_, rfl⟩ | ⟨hne, hother⟩
  · have hunchanged := (hplaced.matched.unfilled order horder).resolve_left
      fun hleft => hleft hzero
    rw [hunchanged] at hzero
    rcases hplaced.stored order (hplaced.matched.stored order horder) with rfl | hregistered
    · rw [hplaced.created] at hzero ⊢
      rw [← hfresh.unfilled, hzero]
    · have hne := (hsettled.allocated index registered hindex order hregistered).ne
      rw [hplaced.others order hne] at hzero ⊢
      exact htracked.resting index registered hindex order hregistered hzero
  · -- an order of another book is not touched
    have hlt := hsettled.allocated position entry hother order horder
    have houtside : order ∉ added.storedOrders := by
      intro hadded
      rcases hplaced.stored order hadded with rfl | hregistered
      · exact hlt.false
      · exact hsettled.disjoint position index entry registered hne hother hindex order horder
          hregistered
    rw [hplaced.matched.others order houtside] at hzero
    rw [hplaced.others order hlt.ne] at hzero ⊢
    exact htracked.resting position entry hother order horder hzero

/-- The trades of a placement name no cancelled order. -/
theorem placed_untraded (htracked : Tracked handlers events)
    (hplaced : handlers.Placed registered newOrder added after)
    {more : List (TradeEvent α Nat)}
    (hsound : ∀ event ∈ more, 0 < event.quantity ∧ ∀ order, event.Names order →
      order ∈ added.storedOrders ∧ (added.orders order).isCanceled = false) :
    Untraded (events ++ more.map .traded) := by
  refine List.pairwise_append.mpr ⟨htracked.untraded, ?_, ?_⟩
  · apply List.pairwise_map.mpr
    apply List.pairwise_of_forall
    rintro first second order event ⟨⟩
  · rintro _ hfirst _ hsecond order event rfl rfl hname
    have hcanceled := (htracked.canceled_iff order).mp hfirst
    have hmem : event ∈ more := by simpa using hsecond
    have hactive := ((hsound event hmem).2 order hname).2
    rw [hplaced.others order hcanceled.1.ne, hcanceled.2] at hactive
    exact Bool.noConfusion hactive

/-- Placing a created order. -/
theorem addAndMatch (htracked : Tracked handlers events)
    (hindex : handlers.books[index]? = some registered) (hfresh : newOrder.Fresh)
    (hsymbol : newOrder.symbol = registered.symbol) :
    let after := handlers.addAndMatch registered.book newOrder
    Tracked
      { handlers.update index registered after with nextAddress := handlers.nextAddress + 1 }
      (events ++ (after.trades.drop handlers.trades.length).map .traded) := by
  intro after
  obtain ⟨added, hplaced⟩ := htracked.settled.placed hindex newOrder
  obtain ⟨more, hmore, hsound⟩ := hplaced.matched.trades
  have hafter : after.trades = handlers.trades ++ more := hplaced.trades_eq ▸ hmore
  have hconfirmed : ∀ order, .canceled order ∈ events ++ more.map LifeEvent.traded ↔
      .canceled order ∈ events := by simp
  rw [hafter, List.drop_left]
  refine ⟨(htracked.settled.addAndMatch hindex hsymbol).1, ?_, ?_,
    htracked.placed_sound hindex hplaced, ?_, ?_, htracked.placed_untraded hplaced hsound, ?_⟩
  · rw [tradesOf_append, tradesOf_traded, htracked.trades_eq]
    exact hafter.symm
  · intro order
    rw [hconfirmed]
    exact htracked.placed_canceled_iff hplaced hfresh order
  · intro order hlt
    exact htracked.placed_balance hplaced hfresh hlt
  · intro position entry hposition order horder hzero
    exact htracked.placed_resting hindex hplaced hfresh hposition horder hzero
  · apply htracked.unfilled_append
    · intro order hlt
      change (after.orders order).quantity = _
      rw [hplaced.matched.sameTerms.quantity, hplaced.others order hlt.ne]
    · intro order horder
      simp at horder

end Placing

/-- Confirming the cancellation of a stored order. -/
theorem cancel (htracked : Tracked handlers events) {index : Nat}
    {registered : RegisteredBook α} (hindex : handlers.books[index]? = some registered)
    {order : Nat} (hstored : order ∈ registered.storedOrders) {after : Engine α Nat}
    (hbook : after.book = registered.book) (htrades : after.trades = handlers.trades)
    (horders : after.orders =
      Function.update handlers.orders order (handlers.orders order).cancel)
    (hsettled : (handlers.update index registered after).Settled) :
    Tracked (handlers.update index registered after) (events ++ [.canceled order]) := by
  have hallocated := htracked.settled.allocated index registered hindex order hstored
  have hquantity : ∀ other, (after.orders other).quantity = (handlers.orders other).quantity := by
    intro other
    rw [horders]
    exact ((SameTerms.refl handlers.orders).update (Order.terms_cancel _)).quantity other
  have hremaining : ∀ other, (after.orders other).remainingQuantity =
      (handlers.orders other).remainingQuantity := by
    intro other
    rw [horders, Function.update_apply]
    split_ifs with hsame
    · rw [hsame, Order.cancel_eq]
    · rfl
  refine ⟨hsettled, ?_, ?_, ?_, ?_, ?_, ?_, ?_⟩
  · rw [tradesOf_append, htracked.trades_eq]
    exact (List.append_nil _).trans htrades.symm
  · intro other
    change _ ↔ other < handlers.nextAddress ∧ (after.orders other).isCanceled = true
    rw [List.mem_append, htracked.canceled_iff, List.mem_singleton, LifeEvent.canceled.injEq,
      horders, Function.update_apply]
    split_ifs with hsame
    · subst hsame
      simp [Order.cancel_eq, hallocated]
    · simp [hsame]
  · change ∀ event ∈ after.trades, _
    rw [htrades]
    exact htracked.sound
  · intro other hlt
    change tradedQuantity after.trades other + (after.orders other).remainingQuantity =
      (after.orders other).quantity
    rw [htrades, hremaining, hquantity]
    exact htracked.balance other hlt
  · intro position entry hposition other hother hzero
    change (after.orders other).remainingQuantity = 0 at hzero
    change (after.orders other).quantity = 0
    rw [hremaining] at hzero
    rw [hquantity]
    rcases ServerHandlers.getElem?_set_cases hposition with ⟨_, rfl⟩ | ⟨_, hold⟩
    · refine htracked.resting index registered hindex other ?_ hzero
      rwa [RegisteredBook.storedOrders, hbook] at hother
    · exact htracked.resting position entry hold other hother hzero
  · refine List.pairwise_append.mpr ⟨htracked.untraded, List.pairwise_singleton _ _, ?_⟩
    intro first _ second hsecond
    rw [List.mem_singleton.mp hsecond]
    rintro _ _ _ ⟨⟩
  · apply htracked.unfilled_append fun other _ => hquantity other
    intro other hother
    obtain rfl : other = order := by simpa using hother
    refine ⟨rfl, ?_⟩
    rw [FilledBy, hquantity]
    exact htracked.not_filled hindex hstored

end Tracked

theorem step_placeOrder (history : LifeHistory α) (created confirmed : Int)
    (message : Option (OrderMessage α)) :
    let after := (history.handlers.handlePlaceOrder created confirmed message).1
    history.step (.placeOrder created confirmed message) =
      { handlers := after
        events := history.events ++
          (after.trades.drop history.handlers.trades.length).map .traded } := by
  simp only [step, confirmations, ServerHandlers.handle, List.append_nil]

/-- A cancel message trades nothing, and is confirmed on account of what it finds. -/
theorem Tracked.step_cancelOrder {history : LifeHistory α}
    (htracked : Tracked history.handlers history.events) (confirmed : Int)
    (request : CancelRequest) :
    history.step (.cancelOrder confirmed request) =
      { handlers := (history.handlers.handleCancelOrder confirmed request).1
        events := history.events ++
          (history.handlers.cancelFound request).toList.map .canceled } := by
  have htrades := (htracked.settled.handleCancelOrder confirmed request).2
  simp only [LifeHistory.step, confirmations, ServerHandlers.handle]
  rw [htrades, List.drop_length, List.map_nil, List.append_nil]
  rcases history.handlers.cancelFound_cases confirmed request with
    ⟨hfound, _, hconfirms, _⟩ | ⟨order, _, _, hfound, _, _, _, hconfirms, _⟩
  · rw [hfound, hconfirms]
    rfl
  · rw [hfound, hconfirms]
    rfl

theorem step_requestBook (history : LifeHistory α) (symbol : Option CString) :
    history.step (.requestBook symbol) = history := by
  simp only [step, confirmations, ServerHandlers.handle,
    ServerHandlers.handleBookRequest_handlers, List.drop_length, List.map_nil, List.append_nil]

theorem Tracked.step {history : LifeHistory α}
    (htracked : Tracked history.handlers history.events) (message : ClientMessage α) :
    Tracked (history.step message).handlers (history.step message).events := by
  cases message with
  | placeOrder created confirmed message =>
      rw [step_placeOrder]
      dsimp only
      rcases history.handlers.handlePlaceOrder_cases created confirmed message with
        ⟨reason, hresult⟩ | ⟨order, found, after, _, hfind, hplaced⟩
      · rw [hresult, List.drop_length, List.map_nil, List.append_nil]
        exact htracked
      · have hafter := htracked.findOrCreateBook hfind
        have htrades := (htracked.settled.findOrCreateBook hfind).2.2
        rw [← htrades]
        rcases hplaced with ⟨reason, hresult⟩ | ⟨index, registered, newOrder, rfl, hcreate, hresult⟩
        · rw [hresult, List.drop_length, List.map_nil, List.append_nil]
          exact hafter
        · obtain ⟨hindex, hsymbol⟩ :=
            (ServerHandlers.findOrCreateBook_spec hfind).2 index registered rfl
          obtain ⟨hshort, hnewSymbol⟩ := Order.create_symbol hcreate
          rw [List.take_of_length_le (Nat.le_of_lt_succ hshort), or_self] at hsymbol
          rw [hresult]
          exact hafter.addAndMatch hindex (Order.create_fresh hcreate)
            (hnewSymbol.trans hsymbol.symm)
  | cancelOrder confirmed request =>
      have hsettled := (htracked.settled.handleCancelOrder confirmed request).1
      rw [htracked.step_cancelOrder]
      rcases history.handlers.cancelFound_cases confirmed request with
        ⟨hfound, hresult, _, _⟩ |
        ⟨order, target, registered, hfound, _, hindex, hsearch, _, hresult⟩
      · rw [hfound, hresult, Option.toList_none, List.map_nil, List.append_nil]
        exact htracked
      · rw [hresult] at hsettled
        rw [hfound, hresult, Option.toList_some, List.map_singleton]
        have hstored := (htracked.settled.searchById_spec hindex hsearch).1
        exact htracked.cancel hindex hstored rfl rfl rfl hsettled
  | requestBook symbol =>
      rw [step_requestBook]
      exact htracked

/-- A message that finds no cancelled order is answered as its client expects: what it
finds is neither cancelled nor filled. -/
theorem Tracked.answers {history : LifeHistory α}
    (htracked : Tracked history.handlers history.events) {message : ClientMessage α}
    (hactive : history.FindsActive message) : history.Answers message := by
  cases message with
  | placeOrder created confirmed message => trivial
  | requestBook symbol => trivial
  | cancelOrder confirmed request =>
      intro target htarget hfinished
      rcases history.handlers.cancelFound_cases confirmed request with
        ⟨_, _, _, herror⟩ | ⟨order, _, registered, hfound, hsome, hindex, hsearch, _, _⟩
      · exact herror target htarget
      · exfalso
        cases hsome.symm.trans htarget
        obtain ⟨hstored, hid⟩ := htracked.settled.searchById_spec hindex hsearch
        have hallocated := htracked.settled.allocated target.index registered hindex order hstored
        rcases hfinished order hallocated hid with hcanceled | ⟨⟨event, hevent, hnames⟩, hfilled⟩
        · have hmark := ((htracked.canceled_iff order).mp hcanceled).2
          rw [hactive order hfound] at hmark
          exact Bool.noConfusion hmark
        · rw [htracked.trades_eq] at hevent hfilled
          exact htracked.not_filled hindex hstored ⟨⟨event, hevent, hnames⟩, hfilled⟩

end LifeHistory

end QuantTrading
