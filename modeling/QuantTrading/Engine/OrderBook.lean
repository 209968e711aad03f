import QuantTrading.Engine.Order
import QuantTrading.Engine.AvlTree
import QuantTrading.Foundation.Transition
import Mathlib.Logic.Function.Basic

/-! # The order book

The functions of `order_book.c`. Orders are mutable and shared: the trees hold
pointers, and filling or cancelling an order changes the memory they point into.
The state of the engine is therefore that memory, the two trees of a book and
the calls made to the trade broadcaster so far.

Pointers that the source checks for `NULL` only as a guard are never `NULL` here.
-/

namespace QuantTrading

/-- A broadcaster of executed trades, known by the server it sends to. -/
structure TradeBroadcaster where
  server : Nat
deriving DecidableEq, Repr

/-- `struct OrderBook`. Its broadcaster is never `NULL`, see `OrderBook.create`. -/
structure OrderBook (α ι : Type*) where
  buyOrders : AVLTree α ι
  sellOrders : AVLTree α ι

/-- A call of `trade_broadcaster_send_trade`. Ids need not be unique, so the two
orders of the match are recorded beside the arguments. -/
structure TradeEvent (α ι : Type*) where
  buyOrder : ι
  sellOrder : ι
  symbol : CString
  buyOrderId : CString
  sellOrderId : CString
  price : α
  quantity : Int
deriving DecidableEq, Repr

/-- A book with the memory its trees point into and the trades sent so far. -/
structure Engine (α ι : Type*) where
  orders : ι → Order α
  book : OrderBook α ι
  trades : List (TradeEvent α ι)

variable {α ι : Type*}

namespace OrderBook

/-- The two empty trees of a new book. -/
def empty : OrderBook α ι where
  buyOrders := AVLTree.create true
  sellOrders := AVLTree.create false

/-- `order_book_create`: refused without a broadcaster. -/
def create (broadcaster : Option TradeBroadcaster) : Option (OrderBook α ι) :=
  match broadcaster with
  | none => none
  | some _ => some empty

/-- The tree of one side. -/
def side (book : OrderBook α ι) (isBuyOrder : Bool) : AVLTree α ι :=
  if isBuyOrder then book.buyOrders else book.sellOrders

end OrderBook

/-- `is_match_possible`. -/
def isMatchPossible [LT α] [DecidableLT α] (buyOrder sellOrder : Order α) : Bool :=
  if buyOrder.isCanceled || sellOrder.isCanceled then false
  else if buyOrder.symbol ≠ sellOrder.symbol then false
  else if buyOrder.price < sellOrder.price then false
  else if buyOrder.remainingQuantity ≤ 0 ∨ sellOrder.remainingQuantity ≤ 0 then false
  else true

namespace Engine

/-- An engine with a fresh book over existing orders. -/
def init (orders : ι → Order α) : Engine α ι where
  orders := orders
  book := OrderBook.empty
  trades := []

section Matching

variable [DecidableEq ι]

/-- The quantity `process_match` trades. -/
def matchQuantity (state : Engine α ι) (buy sell : ι) : Int :=
  if (state.orders buy).remainingQuantity < (state.orders sell).remainingQuantity then
    (state.orders buy).remainingQuantity
  else
    (state.orders sell).remainingQuantity

/-- The memory after the two reductions of `process_match`; their return codes
are ignored by the source. -/
def reducedOrders (state : Engine α ι) (buy sell : ι) : ι → Order α :=
  let quantity := state.matchQuantity buy sell
  let orders := Function.update state.orders buy ((state.orders buy).reduceQuantity quantity).2
  -- the sell order is read from the memory the first reduction left
  Function.update orders sell ((orders sell).reduceQuantity quantity).2

/-- `process_match`: reduce both orders, then broadcast the trade. -/
def processMatch (state : Engine α ι) (buy sell : ι) : Engine α ι :=
  let orders := state.reducedOrders buy sell
  { state with
    orders := orders
    trades := state.trades ++
      [{ buyOrder := buy
         sellOrder := sell
         symbol := (orders buy).symbol
         buyOrderId := (orders buy).orderId
         sellOrderId := (orders sell).orderId
         price := (orders sell).price
         quantity := state.matchQuantity buy sell }] }

end Matching

variable [LT α] [DecidableLT α] [BEq α]

/-- `order_book_add_order`: the return code and the state afterwards. -/
def addOrder (state : Engine α ι) (order : ι) : Int × Engine α ι :=
  let book := state.book
  let record := state.orders order
  if record.isBuyOrder then
    (0, { state with book := { book with
      buyOrders := book.buyOrders.insert record.price record.timestamp order } })
  else
    (0, { state with book := { book with
      sellOrders := book.sellOrders.insert record.price record.timestamp order } })

/-- The loop of `order_book_cancel_order` below a node. It steers by comparing
the node's key with the key of the node's own order. -/
def searchById (orders : ι → Order α) (orderId : CString) (isBuyOrder : Bool) :
    AVLNode α ι → Option ι
  | .nil => none
  | .node current left right _ =>
      if (orders current.order).orderId = orderId then
        some current.order
      else if AVLNode.compareNodes current.price current.timestamp
          (orders current.order).price (orders current.order).timestamp isBuyOrder < 0 then
        searchById orders orderId isBuyOrder left
      else
        searchById orders orderId isBuyOrder right

variable [DecidableEq ι]

/-- `order_book_cancel_order`: the return code and the state afterwards. -/
def cancelOrder (state : Engine α ι) (orderId : CString) (isBuyOrder : Bool) :
    Int × Engine α ι :=
  match searchById state.orders orderId isBuyOrder (state.book.side isBuyOrder).root with
  | some order =>
      (0, { state with
        orders := Function.update state.orders order (state.orders order).cancel })
  | none => (-1, state)

/-- Remove a fully matched buy order from its tree. -/
def removeFilledBuy (state : Engine α ι) (buy : ι) : Engine α ι :=
  let record := state.orders buy
  if record.remainingQuantity = 0 then
    { state with book := { state.book with
      buyOrders := state.book.buyOrders.deleteOrder record.price record.timestamp } }
  else state

/-- Remove a fully matched sell order from its tree. -/
def removeFilledSell (state : Engine α ι) (sell : ι) : Engine α ι :=
  let record := state.orders sell
  if record.remainingQuantity = 0 then
    { state with book := { state.book with
      sellOrders := state.book.sellOrders.deleteOrder record.price record.timestamp } }
  else state

/-- The body of the matching loop for a pair that matches. -/
def tradePair (state : Engine α ι) (buy sell : ι) : Engine α ι :=
  ((state.processMatch buy sell).removeFilledBuy buy).removeFilledSell sell

/-- The best buy and best sell order, when both exist and can be matched. -/
def matchingPair (state : Engine α ι) : Option (ι × ι) :=
  match state.book.buyOrders.findMax, state.book.sellOrders.findMin with
  | some bestBuy, some bestSell =>
      if isMatchPossible (state.orders bestBuy) (state.orders bestSell) then
        some (bestBuy, bestSell)
      else none
  | _, _ => none

/-- One iteration of the matching loop, if it does not break. -/
def matchOnce (state : Engine α ι) : Option (Engine α ι) :=
  state.matchingPair.map fun pair => state.tradePair pair.1 pair.2

/-- Iterations that are always enough: each of them fills a stored order. -/
def matchFuel (state : Engine α ι) : Nat :=
  state.book.buyOrders.root.size + state.book.sellOrders.root.size

/-- `order_book_match_orders`. -/
def matchOrders (state : Engine α ι) : Engine α ι :=
  if state.book.buyOrders.isEmpty then state
  else if state.book.sellOrders.isEmpty then state
  -- the pair before the loop is only read; the loop looks at it again
  else if state.matchingPair.isNone then state
  else Transition.loop matchOnce state.matchFuel state

/-- The states of the call in which `process_match` is called. -/
def matchStates (state : Engine α ι) : List (Engine α ι) :=
  Transition.loopStates matchOnce state.matchFuel state

end Engine

/-- A call on the book. -/
inductive BookOp (ι : Type*) where
  | add (order : ι) : BookOp ι
  | cancel (orderId : CString) (isBuyOrder : Bool) : BookOp ι
  | matchOrders : BookOp ι
deriving DecidableEq, Repr

/-- Perform a call on the book. -/
def Engine.perform [LT α] [DecidableLT α] [BEq α] [DecidableEq ι] (state : Engine α ι) :
    BookOp ι → Engine α ι
  | .add order => (state.addOrder order).2
  | .cancel orderId isBuyOrder => (state.cancelOrder orderId isBuyOrder).2
  | .matchOrders => state.matchOrders

end QuantTrading
