import QuantTrading.Client.ClientApp

/-! # Trade notifications

`trade_broadcaster_send_trade` tells the clients about a trade. It gives the
message the type 102, which the clients read as a rejected order, and puts the
trade into a nested object. A client then uses the member `order_id`, which the
message does not have.
-/

namespace QuantTrading

variable {α ι : Type}

/-- The value that `trade_broadcaster_send_trade` builds for a trade. The text of the
time is what `strftime` makes of the timestamp. -/
def tradeNotification (cjson : CJson α) (event : TradeEvent α ι) (time : CString) : Json α :=
  .object
    [("type".toList, .number (cjson.ofInt 102)),
      ("trade".toList, .object
        [("symbol".toList, .string event.symbol),
          ("buy_order".toList, .string event.buyOrderId),
          ("sell_order".toList, .string event.sellOrderId),
          ("price".toList, .number event.price),
          ("quantity".toList, .number (cjson.ofInt event.quantity)),
          ("time".toList, .string time)])]

/-- The client receives the text as a trade with the given fields and adds it to its
history. -/
structure ReceivesTrade (cjson : CJson α) (app : ClientApp α) (stack : TradeBuffer α)
    (event : TradeEvent α ι) (text : CString) : Prop where
  type_eq : parseBaseMessage cjson text = some ServerMessageType.tradeExecuted.code
  recorded : ∃ trade after, parseTradeMessage cjson text stack = .ok (true, trade) ∧
    trade.symbol.text = .ok event.symbol ∧ trade.buyOrderId.text = .ok event.buyOrderId ∧
    trade.sellOrderId.text = .ok event.sellOrderId ∧ trade.price = event.price ∧
    trade.quantity = event.quantity ∧
    app.handleMessage cjson (text ++ [nul]) text.length stack = .ok after ∧
    after.tradeHistory.trades.head? = some trade

section Notification

variable {cjson : CJson α} {event : TradeEvent α ι} {time : CString}
  (hparse : cjson.parse (cjson.print (tradeNotification cjson event time)) =
    some (tradeNotification cjson event time))
include hparse

/-- The type that the client reads is the one of a rejected order. -/
theorem parseBaseMessage_notification :
    parseBaseMessage cjson (cjson.print (tradeNotification cjson event time)) =
      some ServerMessageType.orderRejected.code := by
  have htype : (tradeNotification cjson event time).getObjectItem "type" =
      some (.number (cjson.ofInt 102)) := rfl
  rw [parseBaseMessage, hparse]
  dsimp only
  rw [htype]
  exact congrArg some (cjson.toInt_ofInt 102 (by decide) (by decide))

/-- The case for rejected orders uses a member that is not there. -/
theorem handleText_notification (app : ClientApp α) (stack : TradeBuffer α) :
    app.handleText cjson (cjson.print (tradeNotification cjson event time)) stack =
      .error .nullPointer := by
  have hmissing : (tradeNotification cjson event time).getObjectItem "order_id" = none := rfl
  rw [ClientApp.handleText, parseBaseMessage_notification hparse, hparse]
  change app.orderRejected (tradeNotification cjson event time) = .error .nullPointer
  rw [ClientApp.orderRejected, Json.requiredItem, hmissing]
  rfl

theorem handleMessage_notification
    (hnul : nul ∉ cjson.print (tradeNotification cjson event time)) (app : ClientApp α)
    (len : Nat) (stack : TradeBuffer α) :
    app.handleMessage cjson (cjson.print (tradeNotification cjson event time) ++ [nul]) len stack =
      .error .nullPointer := by
  rw [ClientApp.handleMessage, readText_append_nul hnul]
  exact handleText_notification hparse app stack

/-- No trade notification is received as a trade, whatever the trade and the state of
the client: the client stops at a member that is missing. -/
theorem notification_not_received
    (hnul : nul ∉ cjson.print (tradeNotification cjson event time)) (app : ClientApp α)
    (stack : TradeBuffer α) :
    let text := cjson.print (tradeNotification cjson event time)
    ¬ ReceivesTrade cjson app stack event text ∧
      parseBaseMessage cjson text = some ServerMessageType.orderRejected.code ∧
      app.handleMessage cjson (text ++ [nul]) text.length stack = .error .nullPointer := by
  intro text
  have htype : parseBaseMessage cjson text = some ServerMessageType.orderRejected.code :=
    parseBaseMessage_notification hparse
  refine ⟨fun hreceives => ?_, htype, handleMessage_notification hparse hnul app _ stack⟩
  have hclash := hreceives.type_eq
  rw [htype] at hclash
  exact absurd hclash (by decide)

end Notification

/-- A trade of five shares of `AAPL`. -/
def sampleTrade : TradeEvent ℚ Nat where
  buyOrder := 0
  sellOrder := 1
  symbol := "AAPL".toList
  buyOrderId := "B1".toList
  sellOrderId := "S1".toList
  price := 10
  quantity := 5

/-- The text cJSON prints for its notification. -/
@[irreducible] def sampleNotification : CString :=
  ("\x7b\n\t\"type\":\t102,\n\t\"trade\":\t\x7b\n\t\t\"symbol\":\t\"AAPL\",\n" ++
    "\t\t\"buy_order\":\t\"B1\",\n\t\t\"sell_order\":\t\"S1\",\n\t\t\"price\":\t10,\n" ++
    "\t\t\"quantity\":\t5,\n\t\t\"time\":\t\"2024-01-01 00:00:00\"\n\t\x7d\n\x7d").toList

/-- A library that knows one text for the notification. -/
def notificationLibrary (text : CString) : CJson ℚ :=
  .table [(text, tradeNotification (.table [] []) sampleTrade "2024-01-01 00:00:00".toList)] text

theorem notificationLibrary_parse (text : CString) :
    let cjson := notificationLibrary text
    cjson.parse (cjson.print
      (tradeNotification cjson sampleTrade "2024-01-01 00:00:00".toList)) =
      some (tradeNotification cjson sampleTrade "2024-01-01 00:00:00".toList) :=
  List.lookup_cons_self

/-- A client without trades. -/
def freshClient : ClientApp ℚ where
  tradeHistory := { trades := [], tradeCount := 0, maxTrades := 1000 }
  marketMonitor := []
  isViewRequested := false
  notices := []

/-- A `TradeMessage` filled with zeros. -/
def zeroTrade : TradeBuffer ℚ where
  symbol := .zero 16
  buyOrderId := .zero 32
  sellOrderId := .zero 32
  price := 0
  quantity := 0
  timestamp := 0

theorem nul_notMem_sampleNotification : nul ∉ sampleNotification := by decide +kernel

theorem notification_not_received_sample :
    ¬ ReceivesTrade (notificationLibrary sampleNotification) freshClient zeroTrade sampleTrade
      sampleNotification :=
  (notification_not_received (notificationLibrary_parse sampleNotification)
    nul_notMem_sampleNotification freshClient zeroTrade).1

/-- The client stops at the notification of this trade. -/
theorem notification_stops_client :
    freshClient.handleMessage (notificationLibrary sampleNotification)
      (sampleNotification ++ [nul]) sampleNotification.length zeroTrade = .error .nullPointer ∧
    ¬ ReceivesTrade (notificationLibrary sampleNotification) freshClient zeroTrade sampleTrade
      sampleNotification := by
  have hstops := handleMessage_notification (notificationLibrary_parse sampleNotification)
    nul_notMem_sampleNotification freshClient sampleNotification.length zeroTrade
  refine ⟨hstops, fun hreceives => ?_⟩
  obtain ⟨_, after, _, _, _, _, _, _, hafter, _⟩ := hreceives.recorded
  exact absurd (hstops.symm.trans hafter) nofun

end QuantTrading
