import QuantTrading.Engine.TreePrograms
import QuantTrading.Engine.Depth

/-! # The order book as a program on memory

The functions of `order_book.c` again, on the records of a book, its two trees and the
orders they point to. The matching loop takes the number of rounds it may make.
`Engine` is what these programs compute.
-/

namespace QuantTrading.BookMemory

open Separation Separation.Program TreeMemory

variable {α : Type}

/-! ## Orders -/

/-- The order a pointer points to. -/
def loadOrder (order : Nat) : Program (EngineCell α) (Order α) := do
  match ← load (some order) with
  | .order record => return record
  | _ => fault

/-- `order_reduce_quantity`. -/
def orderReduceQuantity (order : Nat) (amount : Int) : Program (EngineCell α) Int := do
  let record ← loadOrder order
  let (code, record) := record.reduceQuantity amount
  store (some order) (.order record)
  return code

/-- `order_cancel`. -/
def orderCancel (order : Nat) : Program (EngineCell α) Unit := do
  let record ← loadOrder order
  store (some order) (.order record.cancel)

/-! ## Books -/

/-- The fields of the book a pointer points to. -/
def loadBook (book : Nat) :
    Program (EngineCell α) (Option Nat × Option Nat × Option TradeBroadcaster) := do
  match ← load (some book) with
  | .book buyOrders sellOrders broadcaster => return (buyOrders, sellOrders, broadcaster)
  | _ => fault

/-- `order_book_create`: whatever was allocated before something fails is given back. -/
def orderBookCreate (allocator : Allocator (EngineCell α))
    (broadcaster : Option TradeBroadcaster) : Program (EngineCell α) (Option Nat) := do
  match ← allocate allocator (.book none none none) with
  | none => return none
  | some book =>
      match ← avlCreate allocator true with
      | none => do
          free (some book)
          return none
      | some buyOrders => do
          store (some book) (.book (some buyOrders) none none)
          match ← avlCreate allocator false with
          | none => do
              avlDestroy 0 (some buyOrders)
              free (some book)
              return none
          | some sellOrders => do
              store (some book) (.book (some buyOrders) (some sellOrders) broadcaster)
              match broadcaster with
              | none => do
                  avlDestroy 0 (some sellOrders)
                  avlDestroy 0 (some buyOrders)
                  free (some book)
                  return none
              | some _ => return some book

/-- `order_book_destroy`. The orders are not the book's to free. -/
def orderBookDestroy (depth : Nat) (book : Option Nat) : Program (EngineCell α) Unit :=
  match book with
  | none => return ()
  | some book => do
      let (buyOrders, _, _) ← loadBook book
      match buyOrders with
      | none => pure ()
      | some buyOrders => do
          avlDestroy depth (some buyOrders)
          let (_, sellOrders, broadcaster) ← loadBook book
          store (some book) (.book none sellOrders broadcaster)
      let (_, sellOrders, _) ← loadBook book
      match sellOrders with
      | none => pure ()
      | some sellOrders => do
          avlDestroy depth (some sellOrders)
          let (buyOrders, _, broadcaster) ← loadBook book
          store (some book) (.book buyOrders none broadcaster)
      free (some book)

section Matching

variable [LT α] [DecidableLT α]

/-- `process_match`: the call of the broadcaster it makes. -/
def processMatch (buyOrder sellOrder : Nat) : Program (EngineCell α) (TradeEvent α Nat) := do
  let buy ← loadOrder buyOrder
  let sell ← loadOrder sellOrder
  let matchQuantity :=
    if buy.remainingQuantity < sell.remainingQuantity then buy.remainingQuantity
    else sell.remainingQuantity
  let _ ← orderReduceQuantity buyOrder matchQuantity
  let _ ← orderReduceQuantity sellOrder matchQuantity
  let buy ← loadOrder buyOrder
  let sell ← loadOrder sellOrder
  return {
    buyOrder := buyOrder
    sellOrder := sellOrder
    symbol := buy.symbol
    buyOrderId := buy.orderId
    sellOrderId := sell.orderId
    price := sell.price
    quantity := matchQuantity }

variable [BEq α]

/-- `order_book_add_order`. -/
def orderBookAddOrder (allocator : Allocator (EngineCell α)) (depth : Nat)
    (book order : Option Nat) : Program (EngineCell α) Int :=
  match book, order with
  | some book, some order => do
      let record ← loadOrder order
      let (buyOrders, sellOrders, _) ← loadBook book
      if record.isBuyOrder then
        avlInsert allocator depth buyOrders record.price record.timestamp order
      else
        avlInsert allocator depth sellOrders record.price record.timestamp order
      return 0
  | _, _ => return -1

/-- Remove an order from a tree once it is fully matched. -/
def removeFilled (depth : Nat) (tree : Option Nat) (order : Nat) :
    Program (EngineCell α) Unit := do
  let record ← loadOrder order
  if record.remainingQuantity = 0 then
    avlDeleteOrder depth tree record.price record.timestamp
  else return ()

/-- The matching loop, for at most `rounds` rounds: the calls of the broadcaster. -/
def matchLoop (depth : Nat) (buyOrders sellOrders : Option Nat) (rounds : Nat) :
    Program (EngineCell α) (List (TradeEvent α Nat)) :=
  match rounds with
  | 0 => fault
  | rounds + 1 => do
      let bestBuy ← avlFindMax depth buyOrders
      let bestSell ← avlFindMin depth sellOrders
      match bestBuy, bestSell with
      | some bestBuy, some bestSell => do
          let buy ← loadOrder bestBuy
          let sell ← loadOrder bestSell
          if isMatchPossible buy sell then do
            let trade ← processMatch bestBuy bestSell
            removeFilled depth buyOrders bestBuy
            removeFilled depth sellOrders bestSell
            return trade :: (← matchLoop depth buyOrders sellOrders rounds)
          else return []
      | _, _ => return []

/-- `order_book_match_orders`: the calls of the broadcaster. -/
def orderBookMatchOrders (depth rounds : Nat) (book : Option Nat) :
    Program (EngineCell α) (List (TradeEvent α Nat)) :=
  match book with
  | none => return []
  | some book => do
      let (buyOrders, sellOrders, _) ← loadBook book
      if buyOrders.isNone || sellOrders.isNone then return []
      else if ← avlIsEmpty buyOrders then return []
      else if ← avlIsEmpty sellOrders then return []
      else do
        let bestBuy ← avlFindMax depth buyOrders
        let bestSell ← avlFindMin depth sellOrders
        match bestBuy, bestSell with
        | some bestBuy, some bestSell => do
            let buy ← loadOrder bestBuy
            let sell ← loadOrder bestSell
            if isMatchPossible buy sell then matchLoop depth buyOrders sellOrders rounds
            else return []
        -- the source reads the ids of both orders to log them
        | _, _ => fault

/-- The loop of `order_book_cancel_order`, at most `depth` steps down. -/
def cancelLoop (orderId : CString) (isBuyOrder : Bool) (depth : Nat) (current : Option Nat) :
    Program (EngineCell α) Int :=
  match depth, current with
  | _, none => return -1
  | 0, some _ => fault
  | depth + 1, some current => do
      let node ← loadNode (some current)
      let record ← loadOrder node.order
      if record.orderId = orderId then do
        orderCancel node.order
        return 0
      else if AVLNode.compareNodes node.price node.timestamp record.price record.timestamp
          isBuyOrder < 0 then
        cancelLoop orderId isBuyOrder depth node.left
      else
        cancelLoop orderId isBuyOrder depth node.right

/-- `order_book_cancel_order`. -/
def orderBookCancelOrder (depth : Nat) (book : Option Nat) (orderId : CString)
    (isBuyOrder : Bool) : Program (EngineCell α) Int :=
  match book with
  | none => return -1
  | some book => do
      let (buyOrders, sellOrders, _) ← loadBook book
      let (root, _) ← loadTree (if isBuyOrder then buyOrders else sellOrders)
      cancelLoop orderId isBuyOrder depth root

/-- `count_quantity_callback`, with the total while it is defined. -/
def countQuantityCallback (targetPrice : α) (order : Nat) (totalQuantity : Option Int) :
    Program (EngineCell α) (Option Int) := do
  let record ← loadOrder order
  if record.price == targetPrice && !record.isCanceled then
    return totalQuantity.bind fun total => addInt total record.remainingQuantity
  else return totalQuantity

/-- `order_book_get_quantity_at_price`, `none` when the total overflows. -/
def orderBookGetQuantityAtPrice (depth : Nat) (book : Option Nat) (price : α)
    (isBuyOrder : Bool) : Program (EngineCell α) (Option Int) :=
  match book with
  | none => return some 0
  | some book => do
      let (buyOrders, sellOrders, _) ← loadBook book
      avlInorderTraverse (countQuantityCallback price) depth
        (if isBuyOrder then buyOrders else sellOrders) (some 0)

end Matching

end QuantTrading.BookMemory
