import QuantTrading.Protocol.Json
import QuantTrading.Server.Handlers

/-! # Messages

The message types of `message_types.h` and the parsers of `json_protocol.c`. The
parsers write into structs that their callers do not initialise, so a parser
takes the struct as it was before; a string field is the array that holds it.
-/

namespace QuantTrading

/-- `ClientMessageType`. -/
inductive ClientMessageType where
  | placeOrder
  | cancelOrder
  | requestBook
  | subscribeSymbol
  | unsubscribeSymbol
deriving DecidableEq, Repr

/-- The value of `ClientMessageType` in C. -/
def ClientMessageType.code : ClientMessageType → Int
  | .placeOrder => 1
  | .cancelOrder => 2
  | .requestBook => 3
  | .subscribeSymbol => 4
  | .unsubscribeSymbol => 5

/-- `ServerMessageType`. -/
inductive ServerMessageType where
  | orderAccepted
  | orderRejected
  | orderCanceled
  | tradeExecuted
  | bookSnapshot
  | serverStatus
  | error
deriving DecidableEq, Repr

/-- The value of `ServerMessageType` in C. -/
def ServerMessageType.code : ServerMessageType → Int
  | .orderAccepted => 101
  | .orderRejected => 102
  | .orderCanceled => 103
  | .tradeExecuted => 104
  | .bookSnapshot => 105
  | .serverStatus => 106
  | .error => 107

/-- The type with a code, for a `switch` over it. -/
def ServerMessageType.ofCode (code : Int) : Option ServerMessageType :=
  [orderAccepted, orderRejected, orderCanceled, tradeExecuted, bookSnapshot, serverStatus,
    error].find? fun messageType => messageType.code = code

variable {α : Type} (cjson : CJson α)

/-- `parse_base_message`, `none` when it returns false. A snapshot and a confirmation
are recognised without a type. -/
def parseBaseMessage (json : CString) : Option Int :=
  match cjson.parse json with
  | none => none
  | some root =>
      match root.getObjectItem "type" with
      | some (.number value) => some (cjson.toInt value)
      | _ =>
          if (root.getObjectItem "symbol").isSome ∧ (root.getObjectItem "bids").isSome ∧
              (root.getObjectItem "asks").isSome then
            some ServerMessageType.bookSnapshot.code
          else if (root.getObjectItem "Trade Details").isSome then
            some ServerMessageType.orderAccepted.code
          else
            none

/-- `OrderMessage` in memory. -/
structure OrderBuffer (α : Type) where
  symbol : CharArray 16
  orderId : CharArray 32
  traderId : CharArray 32
  price : α
  quantity : Int
  isBuy : Bool

/-- A struct filled with zeros. -/
def OrderBuffer.zero (price : α) : OrderBuffer α where
  symbol := .zero 16
  orderId := .zero 32
  traderId := .zero 32
  price := price
  quantity := 0
  isBuy := false

/-- The order as the handlers read it from the struct. -/
def OrderBuffer.read (buffer : OrderBuffer α) : Except Fault (OrderMessage α) := do
  let symbol ← buffer.symbol.text
  let orderId ← buffer.orderId.text
  let traderId ← buffer.traderId.text
  .ok
    { symbol := symbol
      orderId := orderId
      traderId := traderId
      price := buffer.price
      quantity := buffer.quantity
      isBuy := buffer.isBuy }

theorem OrderBuffer.read_eq_ok {buffer : OrderBuffer α} {order : OrderMessage α}
    (hread : buffer.read = .ok order) :
    buffer.symbol.text = .ok order.symbol ∧ buffer.orderId.text = .ok order.orderId ∧
      buffer.traderId.text = .ok order.traderId ∧ order.price = buffer.price ∧
      order.quantity = buffer.quantity ∧ order.isBuy = buffer.isBuy := by
  unfold OrderBuffer.read at hread
  cases hsymbol : buffer.symbol.text with
  | error fault =>
      rw [hsymbol] at hread
      cases hread
  | ok symbol =>
      cases horderId : buffer.orderId.text with
      | error fault =>
          rw [hsymbol, horderId] at hread
          cases hread
      | ok orderId =>
          cases htraderId : buffer.traderId.text with
          | error fault =>
              rw [hsymbol, horderId, htraderId] at hread
              cases hread
          | ok traderId =>
              rw [hsymbol, horderId, htraderId] at hread
              cases hread
              exact ⟨rfl, rfl, rfl, rfl, rfl, rfl⟩

/-- What a caller of a parser reads from the struct, `none` when the parser returned
false. -/
def received {Buffer Message : Type} (read : Buffer → Except Fault Message)
    (result : Except Fault (Bool × Buffer)) : Except Fault (Option Message) :=
  match result with
  | .error fault => .error fault
  | .ok (false, _) => .ok none
  | .ok (true, buffer) =>
      match read buffer with
      | .error fault => .error fault
      | .ok message => .ok (some message)

/-- `parse_order_message`: whether it returns true, and the struct afterwards. The
members are only checked for presence. -/
def parseOrderMessage (json : CString) (order : OrderBuffer α) :
    Except Fault (Bool × OrderBuffer α) :=
  match cjson.parse json with
  | none => .ok (false, order)
  | some root =>
      match root.getObjectItem "order_id", root.getObjectItem "trader_id",
          root.getObjectItem "symbol", root.getObjectItem "price",
          root.getObjectItem "quantity", root.getObjectItem "is_buy" with
      | some orderId, some traderId, some symbol, some price, some quantity, some isBuy => do
          let orderIdText ← orderId.stringValue
          let traderIdText ← traderId.stringValue
          let symbolText ← symbol.stringValue
          .ok (true,
            { symbol := order.symbol.strncpy symbolText
              orderId := order.orderId.strncpy orderIdText
              traderId := order.traderId.strncpy traderIdText
              price := price.valuedouble cjson
              quantity := quantity.valueint cjson
              isBuy := isBuy.isTrue })
      | _, _, _, _, _, _ => .ok (false, order)

/-- What is read of an order whose members are all there. -/
theorem received_parseOrderMessage {cjson : CJson α} {json : CString} {root : Json α}
    {orderId traderId symbol : CString} {price quantity isBuy : Json α}
    (hparse : cjson.parse json = some root) (hstrings : root.PlainStrings)
    (horderId : root.getObjectItem "order_id" = some (.string orderId))
    (htraderId : root.getObjectItem "trader_id" = some (.string traderId))
    (hsymbol : root.getObjectItem "symbol" = some (.string symbol))
    (hprice : root.getObjectItem "price" = some price)
    (hquantity : root.getObjectItem "quantity" = some quantity)
    (hisBuy : root.getObjectItem "is_buy" = some isBuy) (prior : OrderBuffer α) :
    received OrderBuffer.read (parseOrderMessage cjson json prior) =
      if prior.symbol.Holds symbol ∧ prior.orderId.Holds orderId ∧
          prior.traderId.Holds traderId then
        .ok (some
          { symbol := symbol.take 15
            orderId := orderId.take 31
            traderId := traderId.take 31
            price := price.valuedouble cjson
            quantity := quantity.valueint cjson
            isBuy := isBuy.isTrue })
      else .error .outOfBounds := by
  have hsymbolText := prior.symbol.text_strncpy (by decide) (hstrings _ _ hsymbol)
  have horderIdText := prior.orderId.text_strncpy (by decide) (hstrings _ _ horderId)
  have htraderIdText := prior.traderId.text_strncpy (by decide) (hstrings _ _ htraderId)
  rw [parseOrderMessage, hparse]
  simp only [horderId, htraderId, hsymbol, hprice, hquantity, hisBuy, Json.stringValue,
    Json.valuestring, bind, Except.bind, received, OrderBuffer.read, hsymbolText, horderIdText,
    htraderIdText]
  by_cases hfirst : prior.symbol.Holds symbol
  · by_cases hsecond : prior.orderId.Holds orderId
    · by_cases hthird : prior.traderId.Holds traderId
      · simp [hfirst, hsecond, hthird]
      · simp [hfirst, hsecond, hthird]
    · simp [hfirst, hsecond]
  · simp [hfirst]

/-- `TradeMessage` in memory. -/
structure TradeBuffer (α : Type) where
  symbol : CharArray 16
  buyOrderId : CharArray 32
  sellOrderId : CharArray 32
  price : α
  quantity : Int
  timestamp : Int

/-- A struct filled with zeros. -/
def TradeBuffer.zero (price : α) : TradeBuffer α where
  symbol := .zero 16
  buyOrderId := .zero 32
  sellOrderId := .zero 32
  price := price
  quantity := 0
  timestamp := 0

/-- `TradeMessage`, with its texts read from the struct. -/
structure TradeMessage (α : Type) where
  symbol : CString
  buyOrderId : CString
  sellOrderId : CString
  price : α
  quantity : Int
  timestamp : Int
deriving DecidableEq, Repr

/-- The trade as it is read from the struct. -/
def TradeBuffer.read (buffer : TradeBuffer α) : Except Fault (TradeMessage α) := do
  let symbol ← buffer.symbol.text
  let buyOrderId ← buffer.buyOrderId.text
  let sellOrderId ← buffer.sellOrderId.text
  .ok
    { symbol := symbol
      buyOrderId := buyOrderId
      sellOrderId := sellOrderId
      price := buffer.price
      quantity := buffer.quantity
      timestamp := buffer.timestamp }

theorem TradeBuffer.read_eq_ok {buffer : TradeBuffer α} {trade : TradeMessage α}
    (hread : buffer.read = .ok trade) :
    buffer.symbol.text = .ok trade.symbol ∧ buffer.buyOrderId.text = .ok trade.buyOrderId ∧
      buffer.sellOrderId.text = .ok trade.sellOrderId ∧ trade.price = buffer.price ∧
      trade.quantity = buffer.quantity ∧ trade.timestamp = buffer.timestamp := by
  unfold TradeBuffer.read at hread
  cases hsymbol : buffer.symbol.text with
  | error fault =>
      rw [hsymbol] at hread
      cases hread
  | ok symbol =>
      cases hbuy : buffer.buyOrderId.text with
      | error fault =>
          rw [hsymbol, hbuy] at hread
          cases hread
      | ok buyOrderId =>
          cases hsell : buffer.sellOrderId.text with
          | error fault =>
              rw [hsymbol, hbuy, hsell] at hread
              cases hread
          | ok sellOrderId =>
              rw [hsymbol, hbuy, hsell] at hread
              cases hread
              exact ⟨rfl, rfl, rfl, rfl, rfl, rfl⟩

/-- `parse_trade_message`: whether it returns true, and the struct afterwards. -/
def parseTradeMessage (json : CString) (trade : TradeBuffer α) :
    Except Fault (Bool × TradeBuffer α) :=
  match cjson.parse json with
  | none => .ok (false, trade)
  | some root =>
      match root.getObjectItem "symbol", root.getObjectItem "buy_order_id",
          root.getObjectItem "sell_order_id", root.getObjectItem "price",
          root.getObjectItem "quantity", root.getObjectItem "timestamp" with
      | some symbol, some buyOrderId, some sellOrderId, some price, some quantity,
          some timestamp => do
          let symbolText ← symbol.stringValue
          let buyOrderIdText ← buyOrderId.stringValue
          let sellOrderIdText ← sellOrderId.stringValue
          .ok (true,
            { symbol := trade.symbol.strncpy symbolText
              buyOrderId := trade.buyOrderId.strncpy buyOrderIdText
              sellOrderId := trade.sellOrderId.strncpy sellOrderIdText
              price := price.valuedouble cjson
              quantity := quantity.valueint cjson
              timestamp := cjson.toInt64 (timestamp.valuedouble cjson) })
      | _, _, _, _, _, _ => .ok (false, trade)

/-- What is read of a trade whose members are all there. -/
theorem received_parseTradeMessage {cjson : CJson α} {json : CString} {root : Json α}
    {symbol buyOrderId sellOrderId : CString} {price quantity timestamp : Json α}
    (hparse : cjson.parse json = some root) (hstrings : root.PlainStrings)
    (hsymbol : root.getObjectItem "symbol" = some (.string symbol))
    (hbuyOrderId : root.getObjectItem "buy_order_id" = some (.string buyOrderId))
    (hsellOrderId : root.getObjectItem "sell_order_id" = some (.string sellOrderId))
    (hprice : root.getObjectItem "price" = some price)
    (hquantity : root.getObjectItem "quantity" = some quantity)
    (htimestamp : root.getObjectItem "timestamp" = some timestamp) (prior : TradeBuffer α) :
    received TradeBuffer.read (parseTradeMessage cjson json prior) =
      if prior.symbol.Holds symbol ∧ prior.buyOrderId.Holds buyOrderId ∧
          prior.sellOrderId.Holds sellOrderId then
        .ok (some
          { symbol := symbol.take 15
            buyOrderId := buyOrderId.take 31
            sellOrderId := sellOrderId.take 31
            price := price.valuedouble cjson
            quantity := quantity.valueint cjson
            timestamp := cjson.toInt64 (timestamp.valuedouble cjson) })
      else .error .outOfBounds := by
  have hsymbolText := prior.symbol.text_strncpy (by decide) (hstrings _ _ hsymbol)
  have hbuyText := prior.buyOrderId.text_strncpy (by decide) (hstrings _ _ hbuyOrderId)
  have hsellText := prior.sellOrderId.text_strncpy (by decide) (hstrings _ _ hsellOrderId)
  rw [parseTradeMessage, hparse]
  simp only [hsymbol, hbuyOrderId, hsellOrderId, hprice, hquantity, htimestamp, Json.stringValue,
    Json.valuestring, bind, Except.bind, received, TradeBuffer.read, hsymbolText, hbuyText,
    hsellText]
  by_cases hfirst : prior.symbol.Holds symbol
  · by_cases hsecond : prior.buyOrderId.Holds buyOrderId
    · by_cases hthird : prior.sellOrderId.Holds sellOrderId
      · simp [hfirst, hsecond, hthird]
      · simp [hfirst, hsecond, hthird]
    · simp [hfirst, hsecond]
  · simp [hfirst]

end QuantTrading
