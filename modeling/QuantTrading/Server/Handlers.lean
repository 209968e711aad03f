import QuantTrading.Engine.OrderBook

/-! # The message handlers of the server

The functions of `server_handlers.c` that act on the order books, one message at
a time. A handler receives what it reads from the message: `handle_place_order`
the result of `parse_order_message`, the others the members they look up. It
returns the handlers afterwards and what is sent to the client.

The arrays `books` and `symbols` are one list in registration order; like the
source, registration does not look at `MAX_SYMBOLS`. Orders are never freed, so
`malloc` returns ascending addresses; allocation succeeds.
-/

namespace QuantTrading

/-- `OrderMessage`. -/
structure OrderMessage (α : Type*) where
  symbol : CString
  orderId : CString
  traderId : CString
  price : α
  quantity : Int
  isBuy : Bool
deriving DecidableEq, Repr

/-- The members `handle_cancel_order` looks up: `order_id` and `symbol` when they
are strings, and the `valueint` of `is_buy`. -/
structure CancelRequest where
  orderId : Option CString
  symbol : Option CString
  isBuy : Option Int
deriving DecidableEq, Repr

/-- `BookSnapshot`, each side as the list of its prices and quantities. -/
structure BookSnapshot (α : Type*) where
  symbol : CString
  maxOrders : Nat
  bids : List (α × Int)
  asks : List (α × Int)
deriving DecidableEq, Repr

/-- What a handler sends to the client. Times are those put into the text. -/
inductive Response (α : Type*) where
  | orderAccepted (order : OrderMessage α) (timestamp : Int) : Response α
  | orderCanceled (orderId symbol : CString) (timestamp : Int) : Response α
  | bookSnapshot (snapshot : BookSnapshot α) : Response α
  | error (reason : String) : Response α
deriving DecidableEq, Repr

/-- An entry of `books` and `symbols`. -/
structure RegisteredBook (α : Type*) where
  symbol : CString
  book : OrderBook α Nat

/-- The fields of `struct ServerHandlers` the handlers work on, with the memory of
all orders and the trades sent so far. -/
structure ServerHandlers (α : Type*) where
  books : List (RegisteredBook α)
  tradeBroadcaster : Option TradeBroadcaster
  orders : Nat → Order α
  nextAddress : Nat
  trades : List (TradeEvent α Nat)

variable {α : Type*}

/-- `collect_orders`. -/
def collectOrders (orders : Nat → Order α) (order : Nat) (snapshot : BookSnapshot α) :
    BookSnapshot α :=
  let record := orders order
  if record.isCanceled || record.remainingQuantity ≤ 0 then snapshot
  else if record.isBuyOrder then
    if snapshot.bids.length < snapshot.maxOrders then
      { snapshot with bids := snapshot.bids ++ [(record.price, record.remainingQuantity)] }
    else snapshot
  else
    if snapshot.asks.length < snapshot.maxOrders then
      { snapshot with asks := snapshot.asks ++ [(record.price, record.remainingQuantity)] }
    else snapshot

namespace ServerHandlers

/-- `server_handlers_create`, over memory that holds no order of a book yet. -/
def create (orders : Nat → Order α) (tradeBroadcaster : Option TradeBroadcaster) :
    ServerHandlers α where
  books := []
  tradeBroadcaster := tradeBroadcaster
  orders := orders
  nextAddress := 0
  trades := []

/-- The engine of one of the books. -/
def engine (handlers : ServerHandlers α) (book : OrderBook α Nat) : Engine α Nat where
  orders := handlers.orders
  book := book
  trades := handlers.trades

/-- The loop that looks for the book of a symbol: its index and the entry there. -/
def findBook (handlers : ServerHandlers α) (symbol : CString) :
    Option (Nat × RegisteredBook α) :=
  (handlers.books.findIdx? fun registered => registered.symbol = symbol).bind fun index =>
    handlers.books[index]?.map fun registered => (index, registered)

/-- Find the book of a symbol, or create it and register it at the end under the
first fifteen characters of the symbol. -/
def findOrCreateBook (handlers : ServerHandlers α) (symbol : CString) :
    Option (Nat × RegisteredBook α) × ServerHandlers α :=
  match handlers.findBook symbol with
  | some found => (some found, handlers)
  | none =>
      match OrderBook.create handlers.tradeBroadcaster with
      | none => (none, handlers)
      | some book =>
          let registered : RegisteredBook α := { symbol := symbol.take 15, book := book }
          (some (handlers.books.length, registered),
            { handlers with books := handlers.books ++ [registered] })

/-- Store what the engine of the book at `index` has become. -/
def update (handlers : ServerHandlers α) (index : Nat) (registered : RegisteredBook α)
    (after : Engine α Nat) : ServerHandlers α :=
  { handlers with
    books := handlers.books.set index { registered with book := after.book }
    orders := after.orders
    trades := after.trades }

/-- The snapshot of a book that is sent to a client. -/
def snapshot (orders : Nat → Order α) (symbol : CString) (book : OrderBook α Nat) :
    BookSnapshot α :=
  let start : BookSnapshot α :=
    { symbol := symbol.take 15, maxOrders := 200, bids := [], asks := [] }
  book.sellOrders.inorderTraverse (collectOrders orders)
    (book.buyOrders.inorderTraverse (collectOrders orders) start)

variable [LT α] [DecidableLT α] [BEq α]

/-- Put a created order into memory, add it to a book and match the book. -/
def addAndMatch (handlers : ServerHandlers α) (book : OrderBook α Nat) (order : Order α) :
    Engine α Nat :=
  let allocated : Engine α Nat :=
    { orders := Function.update handlers.orders handlers.nextAddress order
      book := book
      trades := handlers.trades }
  (allocated.addOrder handlers.nextAddress).2.matchOrders

/-- `handle_place_order` on the parsed message, `none` when parsing failed. The
order is created at one reading of the clock and confirmed at a later one. -/
def handlePlaceOrder (handlers : ServerHandlers α) (created confirmed : Int)
    (message : Option (OrderMessage α)) : ServerHandlers α × List (Response α) :=
  match message with
  | none => (handlers, [.error "Invalid order format"])
  | some order =>
      -- a book created here stays registered when the order is refused below
      match handlers.findOrCreateBook order.symbol with
      | (none, handlers) => (handlers, [.error "Failed to place order"])
      | (some (index, registered), handlers) =>
          match Order.create order.orderId order.traderId order.symbol order.price
              order.quantity order.isBuy created with
          | none => (handlers, [.error "Failed to place order"])
          | some newOrder =>
              let after := handlers.addAndMatch registered.book newOrder
              ({ handlers.update index registered after with
                  nextAddress := handlers.nextAddress + 1 },
                [.orderAccepted order confirmed,
                  .bookSnapshot (snapshot after.orders order.symbol after.book)])

/-- `handle_cancel_order`. -/
def handleCancelOrder (handlers : ServerHandlers α) (confirmed : Int) (request : CancelRequest) :
    ServerHandlers α × List (Response α) :=
  match request.orderId, request.symbol with
  | some orderId, some symbol =>
      match handlers.findBook symbol with
      | none => (handlers, [.error "Order book not found"])
      | some (index, registered) =>
          match request.isBuy with
          | none => (handlers, [.error "Missing is_buy flag"])
          | some isBuy =>
              let result := (handlers.engine registered.book).cancelOrder orderId (isBuy ≠ 0)
              -- a failed search has changed nothing
              if result.1 ≠ 0 then
                (handlers, [.error "Order not found or already canceled"])
              else
                (handlers.update index registered result.2,
                  [.orderCanceled orderId symbol confirmed])
  | _, _ => (handlers, [.error "Missing order_id or symbol"])

/-- `handle_book_request`, on the `symbol` member when it is a string. -/
def handleBookRequest (handlers : ServerHandlers α) (symbol : Option CString) :
    ServerHandlers α × List (Response α) :=
  match symbol with
  | none => (handlers, [.error "Missing symbol"])
  | some symbol =>
      match handlers.findBook symbol with
      | none => (handlers, [.error "Order book not found"])
      | some (_, registered) =>
          (handlers, [.bookSnapshot (snapshot handlers.orders symbol registered.book)])

end ServerHandlers

/-- A message of one of the three types with a handler, with the readings of the
clock while it is handled. -/
inductive ClientMessage (α : Type*) where
  | placeOrder (created confirmed : Int) (order : Option (OrderMessage α)) : ClientMessage α
  | cancelOrder (confirmed : Int) (request : CancelRequest) : ClientMessage α
  | requestBook (symbol : Option CString) : ClientMessage α

/-- What a worker does with a message: run its handler. -/
def ServerHandlers.handle [LT α] [DecidableLT α] [BEq α] (handlers : ServerHandlers α) :
    ClientMessage α → ServerHandlers α × List (Response α)
  | .placeOrder created confirmed order => handlers.handlePlaceOrder created confirmed order
  | .cancelOrder confirmed request => handlers.handleCancelOrder confirmed request
  | .requestBook symbol => handlers.handleBookRequest symbol

end QuantTrading
