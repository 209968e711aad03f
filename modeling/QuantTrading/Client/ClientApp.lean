import QuantTrading.Protocol.Messages

/-! # The client program

`handle_message` of `client_app.c`: what the client does with a message of the
server. It keeps the executed trades and prints the rest; what is printed is kept
as data. Members that the code looks up and uses without a check are faults when
they are missing.
-/

namespace QuantTrading

/-- `struct TradeHistory`, the newest trade first. -/
structure TradeHistory (α : Type) where
  trades : List (TradeBuffer α)
  tradeCount : Int
  maxTrades : Int

/-- `trade_history_add_trade`. A full history drops the head of its list. -/
def TradeHistory.addTrade {α : Type} (history : TradeHistory α) (trade : TradeBuffer α) :
    Except Fault (TradeHistory α) :=
  if history.maxTrades ≤ history.tradeCount then
    match history.trades with
    | [] => .error .nullPointer
    | _ :: rest => .ok { history with trades := trade :: rest }
  else
    .ok { history with trades := trade :: history.trades, tradeCount := history.tradeCount + 1 }

/-- An entry of `MarketMonitor`, as far as trades concern it. -/
structure MarketSymbol (α : Type) where
  symbol : CString
  latestTrade : Option (TradeBuffer α)

/-- What the client prints. -/
inductive Notice (α : Type) where
  | orderPlaced (orderId symbol side : CString) (price : α) (quantity : Int) : Notice α
  | orderRejected (orderId reason : CString) : Notice α
  | marketTrade (symbol : CString) (price : α) (quantity : Int) : Notice α
  | tradeExecuted (symbol buyOrderId sellOrderId : CString) (price : α) (quantity : Int) :
      Notice α
  | orderBook (symbol : CString) (bids asks : List (α × Int)) : Notice α
  | serverStatus (status : CString) : Notice α
deriving DecidableEq, Repr

/-- The variables of the program that `handle_message` uses, with the notices printed
so far. -/
structure ClientApp (α : Type) where
  tradeHistory : TradeHistory α
  marketMonitor : List (MarketSymbol α)
  isViewRequested : Bool
  notices : List (Notice α)

variable {α : Type} (cjson : CJson α)

/-- A member that is used without a check. -/
def Json.requiredItem (item : Json α) (name : String) : Except Fault (Json α) :=
  match item.getObjectItem name with
  | some member => .ok member
  | none => .error .nullPointer

/-- The price and quantity of an entry of a snapshot. -/
def snapshotLevel (entry : Json α) : Except Fault (α × Int) := do
  let price ← entry.requiredItem "price"
  let quantity ← entry.requiredItem "quantity"
  .ok (price.valuedouble cjson, quantity.valueint cjson)

namespace ClientApp

/-- Print a notice. -/
def print (app : ClientApp α) (notice : Notice α) : ClientApp α :=
  { app with notices := app.notices ++ [notice] }

/-- `market_monitor_update_trade` for the symbol of the trade. -/
def updateTrade (app : ClientApp α) (symbol : CString) (trade : TradeBuffer α) : ClientApp α :=
  match app.marketMonitor.findIdx? fun entry => entry.symbol = symbol with
  | some index =>
      { app with marketMonitor :=
          app.marketMonitor.modify index fun entry => { entry with latestTrade := some trade } }
        |>.print (.marketTrade symbol trade.price trade.quantity)
  | none => app

/-- The case `MSG_ORDER_ACCEPTED`. -/
def orderAccepted (app : ClientApp α) (root : Json α) : Except Fault (ClientApp α) :=
  match root.getObjectItem "Trade Details" with
  | some (.object members) =>
      let details : Json α := .object members
      match details.getObjectItem "Order ID", details.getObjectItem "Symbol",
          details.getObjectItem "Price", details.getObjectItem "Quantity",
          details.getObjectItem "Type" with
      | some (.string orderId), some (.string symbol), some (.number price),
          some (.number quantity), some (.string side) =>
          .ok (app.print (.orderPlaced orderId symbol side price (cjson.toInt quantity)))
      | _, _, _, _, _ => .ok app
  | _ => .ok app

/-- The case `MSG_ORDER_REJECTED`. -/
def orderRejected (app : ClientApp α) (root : Json α) : Except Fault (ClientApp α) := do
  let orderId ← root.requiredItem "order_id"
  let reason ← root.requiredItem "reason"
  let orderIdText ← orderId.stringValue
  let reasonText ← reason.stringValue
  .ok (app.print (.orderRejected orderIdText reasonText))

/-- The case `MSG_TRADE_EXECUTED`, with the struct `TradeMessage` on the stack as it
was. -/
def tradeExecuted (app : ClientApp α) (message : CString) (stack : TradeBuffer α) :
    Except Fault (ClientApp α) := do
  let result ← parseTradeMessage cjson message stack
  if result.1 then
    let trade := result.2
    let history ← app.tradeHistory.addTrade trade
    let symbol ← trade.symbol.text
    let buyOrderId ← trade.buyOrderId.text
    let sellOrderId ← trade.sellOrderId.text
    let app := ({ app with tradeHistory := history } : ClientApp α).updateTrade symbol trade
    .ok (app.print (.tradeExecuted symbol buyOrderId sellOrderId trade.price trade.quantity))
  else
    .ok app

/-- The case `MSG_BOOK_SNAPSHOT`. Bids are printed from the last to the first. -/
def bookSnapshot (app : ClientApp α) (root : Json α) : Except Fault (ClientApp α) :=
  if app.isViewRequested then do
    let symbol ← root.requiredItem "symbol"
    match root.getObjectItem "bids", root.getObjectItem "asks" with
    | some bids, some asks =>
        let symbolText ← symbol.stringValue
        let bidLevels ← bids.children.reverse.mapM (snapshotLevel cjson)
        let askLevels ← asks.children.mapM (snapshotLevel cjson)
        .ok { app.print (.orderBook symbolText bidLevels askLevels) with isViewRequested := false }
    | _, _ => .ok app
  else
    .ok app

/-- The case `MSG_SERVER_STATUS`. -/
def serverStatus (app : ClientApp α) (root : Json α) : Except Fault (ClientApp α) := do
  let status ← root.requiredItem "status"
  let statusText ← status.stringValue
  .ok (app.print (.serverStatus statusText))

/-- `handle_message` on the text it reads. -/
def handleText (app : ClientApp α) (message : CString) (stack : TradeBuffer α) :
    Except Fault (ClientApp α) :=
  match parseBaseMessage cjson message with
  | none => .ok app
  | some msgType =>
      match cjson.parse message with
      | none => .ok app
      | some root =>
          match ServerMessageType.ofCode msgType with
          | some .orderAccepted => app.orderAccepted cjson root
          | some .orderRejected => app.orderRejected root
          | some .tradeExecuted => app.tradeExecuted cjson message stack
          | some .bookSnapshot => app.bookSnapshot cjson root
          | some .serverStatus => app.serverStatus root
          -- other types are only logged
          | _ => .ok app

/-- `handle_message` on the memory it is given. The length is only logged. -/
def handleMessage (app : ClientApp α) (message : List Char) (_len : Nat) (stack : TradeBuffer α) :
    Except Fault (ClientApp α) :=
  match readText message with
  | .error fault => .error fault
  | .ok text => app.handleText cjson text stack

end ClientApp

end QuantTrading
