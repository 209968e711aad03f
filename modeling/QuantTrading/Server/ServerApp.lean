import QuantTrading.Server.Admission
import QuantTrading.Server.WsServer

/-! # The server program

`main` of `server_app.c` configures the handlers without a trade broadcaster, and
`order_book_create` refuses to create a book without one. So the program answers
every place message with an error.
-/

namespace QuantTrading

/-- `HandlerConfig`. -/
structure HandlerConfig where
  threadPoolSize : Nat
  maxMessageSize : Nat
  messageQueueSize : Nat
  tradeBroadcaster : Option TradeBroadcaster

/-- The `handler_config` of `main`. The initializer does not name the broadcaster, so
it is `NULL`. -/
def mainHandlerConfig : HandlerConfig where
  threadPoolSize := 4
  maxMessageSize := 4096
  messageQueueSize := 1000
  tradeBroadcaster := none

/-- `message_handler_wrapper`: the return code of `server_handlers_process_message` is
not used. -/
def messageHandlerWrapper {Client : Type} (client : Client) (message : List Char) (len : Nat)
    (queue : MessageQueue Client) : Except Fault (MessageQueue Client) :=
  (queue.processMessage client message len).map Prod.snd

/-- The server of `main`, which sets no other callback. -/
def mainServer {Client : Type} (queue : MessageQueue Client) :
    WSServer Client (MessageQueue Client) :=
  (WSServer.create queue).setMessageCallback messageHandlerWrapper queue

variable {α : Type}

/-- The part of `server_handlers_create` that concerns the books. -/
def HandlerConfig.createHandlers (config : HandlerConfig) (orders : Nat → Order α) :
    ServerHandlers α :=
  ServerHandlers.create orders config.tradeBroadcaster

variable [LT α] [DecidableLT α] [BEq α]

/-- A place message is confirmed, and a book is registered for its symbol. -/
def ServerHandlers.Places (handlers : ServerHandlers α) (created confirmed : Int)
    (order : OrderMessage α) : Prop :=
  let result := handlers.handlePlaceOrder created confirmed (some order)
  .orderAccepted order confirmed ∈ result.2 ∧ ∃ found, result.1.findBook order.symbol = some found

/-- No text changes the handlers of `main`. -/
theorem serve_main {cjson : CJson α} {orders : Nat → Order α} {items : List (WorkItem α)}
    {handlers : ServerHandlers α}
    (hserve : serve cjson (mainHandlerConfig.createHandlers orders) items = .ok handlers) :
    handlers = mainHandlerConfig.createHandlers orders := by
  refine serve_invariant (fun current => current = mainHandlerConfig.createHandlers orders) ?_
    rfl hserve
  rintro current call _ _ rfl _
  exact ServerHandlers.handle_of_no_broadcaster rfl rfl call

/-- In no state that the handlers of `main` reach is a place message confirmed or a
book registered: every one is answered with an error. -/
theorem main_places_nothing {cjson : CJson α} (orders : Nat → Order α) (items : List (WorkItem α))
    {handlers : ServerHandlers α}
    (hserve : serve cjson (mainHandlerConfig.createHandlers orders) items = .ok handlers)
    (created confirmed : Int) (order : OrderMessage α) :
    ¬ handlers.Places created confirmed order ∧
      handlers.handlePlaceOrder created confirmed (some order) =
        (handlers, [.error "Failed to place order"]) ∧ handlers.books = [] := by
  have hrefused : handlers.handlePlaceOrder created confirmed (some order) =
      (handlers, [.error "Failed to place order"]) := by
    rw [serve_main hserve]
    exact ServerHandlers.handlePlaceOrder_of_no_broadcaster rfl rfl created confirmed
  refine ⟨?_, hrefused, by rw [serve_main hserve]; rfl⟩
  rintro ⟨haccepted, _⟩
  rw [hrefused] at haccepted
  simp at haccepted

/-- A valid order for `AAPL`. -/
def validOrder : OrderMessage ℚ where
  symbol := "AAPL".toList
  orderId := "O1".toList
  traderId := "T1".toList
  price := 10
  quantity := 5
  isBuy := true

/-- After a place message that was refused, the next one is refused. -/
theorem main_places_nothing_again :
    ∃ handlers, placeRun mainHandlerConfig.tradeBroadcaster "5" 5 = .ok handlers ∧
      ¬ handlers.Places 0 0 validOrder := by
  have hrefused : (placeRun mainHandlerConfig.tradeBroadcaster "5" 5).map
      (fun handlers => handlers.books.length) = .ok 0 := by decide +kernel
  obtain ⟨handlers, hrun, _⟩ := exists_of_map_eq_ok hrefused
  exact ⟨handlers, hrun, (main_places_nothing _ _ hrun 0 0 validOrder).1⟩

/-- The handlers of `main` before any message refuse a valid order. -/
theorem main_refuses_valid_order :
    let handlers : ServerHandlers ℚ :=
      mainHandlerConfig.createHandlers fun _ => Order.sample "" 0 0 true 0
    (validateOrderMessage exactLimits validOrder).isOk = true ∧
      handlers.books.length < maxSymbols ∧ ¬ handlers.Places 0 0 validOrder := by
  intro handlers
  refine ⟨by decide +kernel, by decide, ?_⟩
  rintro ⟨haccepted, _⟩
  rw [ServerHandlers.handlePlaceOrder_of_no_broadcaster rfl rfl] at haccepted
  simp at haccepted

end QuantTrading
