import QuantTrading.Protocol.BookSnapshots

/-! # Serialization

The serializers of `json_protocol.c`, and that the parsers undo them: a message is
serialized from its struct and parsed into a struct that was filled with zeros.
-/

namespace QuantTrading

variable {α : Type} (cjson : CJson α)

/-- The JSON value of an order. -/
def orderRoot (order : OrderMessage α) : Json α :=
  .object
    [("order_id".toList, .string order.orderId), ("trader_id".toList, .string order.traderId),
      ("symbol".toList, .string order.symbol), ("price".toList, .number order.price),
      ("quantity".toList, .number (cjson.ofInt order.quantity)),
      ("is_buy".toList, .bool order.isBuy)]

/-- `serialize_order_message`. -/
def serializeOrderMessage (order : OrderBuffer α) : Except Fault CString := do
  let message ← order.read
  .ok (cjson.print (orderRoot cjson message))

/-- The JSON value of a trade. -/
def tradeRoot (trade : TradeMessage α) : Json α :=
  .object
    [("symbol".toList, .string trade.symbol), ("buy_order_id".toList, .string trade.buyOrderId),
      ("sell_order_id".toList, .string trade.sellOrderId), ("price".toList, .number trade.price),
      ("quantity".toList, .number (cjson.ofInt trade.quantity)),
      ("timestamp".toList, .number (cjson.ofInt trade.timestamp))]

/-- `serialize_trade_message`. -/
def serializeTradeMessage (trade : TradeBuffer α) : Except Fault CString := do
  let message ← trade.read
  .ok (cjson.print (tradeRoot cjson message))

/-- The JSON value of a level. -/
def levelItem (entry : α × Int) : Json α :=
  .object [("price".toList, .number entry.1), ("quantity".toList, .number (cjson.ofInt entry.2))]

/-- The JSON value of a snapshot. The field `max_orders` is not part of it. -/
def snapshotRoot (snapshot : BookSnapshot α) : Json α :=
  .object
    [("symbol".toList, .string snapshot.symbol),
      ("bids".toList, .array (snapshot.bids.map (levelItem cjson))),
      ("asks".toList, .array (snapshot.asks.map (levelItem cjson)))]

/-- `serialize_book_snapshot`. -/
def serializeBookSnapshot (snapshot : SnapshotBuffer α) : Except Fault CString := do
  let message ← snapshot.read
  .ok (cjson.print (snapshotRoot cjson message))

variable {cjson : CJson α}

theorem toInt_ofInt_of_isInt {value : Int} (hvalue : IsInt value) :
    cjson.toInt (cjson.ofInt value) = value :=
  cjson.toInt_ofInt value hvalue.1 hvalue.2

/-! ## Orders -/

/-- An order that can be read from its struct is parsed back. -/
theorem parse_serialize_order {order : OrderBuffer α} {message : OrderMessage α}
    (hread : order.read = .ok message) (hquantity : IsInt order.quantity)
    (hprint : cjson.parse (cjson.print (orderRoot cjson message)) = some (orderRoot cjson message))
    (price : α) :
    ∃ json after, serializeOrderMessage cjson order = .ok json ∧
      parseOrderMessage cjson json (.zero price) = .ok (true, after) ∧
      after.read = .ok message := by
  obtain ⟨hsymbol, horderId, htraderId, hprice, hcount, hside⟩ := OrderBuffer.read_eq_ok hread
  have hkept : cjson.toInt (cjson.ofInt message.quantity) = message.quantity :=
    toInt_ofInt_of_isInt (hcount ▸ hquantity)
  refine ⟨cjson.print (orderRoot cjson message),
    { symbol := (CharArray.zero 16).strncpy message.symbol
      orderId := (CharArray.zero 32).strncpy message.orderId
      traderId := (CharArray.zero 32).strncpy message.traderId
      price := message.price
      quantity := message.quantity
      isBuy := message.isBuy }, ?_, ?_, ?_⟩
  · rw [serializeOrderMessage, hread]
    rfl
  · rw [parseOrderMessage, hprint, ← hkept]
    rfl
  · obtain ⟨hsymbolPlain, hsymbolFits⟩ := CharArray.text_eq_ok hsymbol
    obtain ⟨horderIdPlain, horderIdFits⟩ := CharArray.text_eq_ok horderId
    obtain ⟨htraderIdPlain, htraderIdFits⟩ := CharArray.text_eq_ok htraderId
    rw [OrderBuffer.read]
    dsimp only
    rw [CharArray.text_zero_strncpy hsymbolPlain hsymbolFits,
      CharArray.text_zero_strncpy horderIdPlain horderIdFits,
      CharArray.text_zero_strncpy htraderIdPlain htraderIdFits]
    rfl

/-! ## Trades -/

/-- A trade that can be read from its struct is parsed back, when its timestamp is one
that a `double` holds. -/
theorem parse_serialize_trade {trade : TradeBuffer α} {message : TradeMessage α}
    (hread : trade.read = .ok message) (hquantity : IsInt trade.quantity)
    (hlower : -2 ^ 53 ≤ trade.timestamp) (hupper : trade.timestamp ≤ 2 ^ 53)
    (hprint : cjson.parse (cjson.print (tradeRoot cjson message)) = some (tradeRoot cjson message))
    (price : α) :
    ∃ json after, serializeTradeMessage cjson trade = .ok json ∧
      parseTradeMessage cjson json (.zero price) = .ok (true, after) ∧
      after.read = .ok message := by
  obtain ⟨hsymbol, hbuy, hsell, hprice, hcount, htime⟩ := TradeBuffer.read_eq_ok hread
  have hkept : cjson.toInt (cjson.ofInt message.quantity) = message.quantity :=
    toInt_ofInt_of_isInt (hcount ▸ hquantity)
  have htimeKept : cjson.toInt64 (cjson.ofInt message.timestamp) = message.timestamp :=
    cjson.toInt64_ofInt _ (htime ▸ hlower) (htime ▸ hupper)
  refine ⟨cjson.print (tradeRoot cjson message),
    { symbol := (CharArray.zero 16).strncpy message.symbol
      buyOrderId := (CharArray.zero 32).strncpy message.buyOrderId
      sellOrderId := (CharArray.zero 32).strncpy message.sellOrderId
      price := message.price
      quantity := cjson.toInt (cjson.ofInt message.quantity)
      timestamp := cjson.toInt64 (cjson.ofInt message.timestamp) }, ?_, ?_, ?_⟩
  · rw [serializeTradeMessage, hread]
    rfl
  · rw [parseTradeMessage, hprint]
    rfl
  · obtain ⟨hsymbolPlain, hsymbolFits⟩ := CharArray.text_eq_ok hsymbol
    obtain ⟨hbuyPlain, hbuyFits⟩ := CharArray.text_eq_ok hbuy
    obtain ⟨hsellPlain, hsellFits⟩ := CharArray.text_eq_ok hsell
    rw [TradeBuffer.read, hkept, htimeKept]
    dsimp only
    rw [CharArray.text_zero_strncpy hsymbolPlain hsymbolFits,
      CharArray.text_zero_strncpy hbuyPlain hbuyFits,
      CharArray.text_zero_strncpy hsellPlain hsellFits]
    rfl

/-! ## Snapshots -/

theorem levelTerms_levelItem (cjson : CJson α) {entry : α × Int} (hquantity : IsInt entry.2) :
    levelTerms cjson (levelItem cjson entry) = some entry := by
  change some (entry.1, cjson.toInt (cjson.ofInt entry.2)) = some entry
  rw [toInt_ofInt_of_isInt hquantity]

/-- The levels of a side are parsed back in their order. -/
theorem readEntries_levelItems (cjson : CJson α) {entries : List (α × Int)}
    (hquantities : ∀ entry ∈ entries, IsInt entry.2) (fresh : FreshMemory α) :
    let levels := entries.map (levelItem cjson)
    LevelArrays.readEntries
      (some (writeLevels cjson (fresh.malloc levels.length) 0 levels)) levels.length =
        .ok entries := by
  intro levels
  rw [readEntries_writeLevels]
  congr 1
  apply List.ext_getElem
  · simp [levels]
  · intro index _ hlt
    have hterms := levelTerms_levelItem cjson
      (hquantities _ (List.getElem_mem hlt))
    simp [levels, List.getElem?_eq_getElem hlt, hterms]

/-- A snapshot that can be read from its struct is parsed back, but for `max_orders`. -/
theorem parse_serialize_snapshot {snapshot : SnapshotBuffer α} {message : BookSnapshot α}
    (hread : snapshot.read = .ok message)
    (hbids : ∀ entry ∈ message.bids, IsInt entry.2)
    (hasks : ∀ entry ∈ message.asks, IsInt entry.2)
    (hnumBids : 0 ≤ snapshot.numBids) (hnumAsks : 0 ≤ snapshot.numAsks)
    (hprint : cjson.parse (cjson.print (snapshotRoot cjson message)) =
      some (snapshotRoot cjson message)) (fresh : FreshMemory α × FreshMemory α) :
    ∃ json after, serializeBookSnapshot cjson snapshot = .ok json ∧
      parseBookSnapshot cjson json (some fresh) .zero = .ok (true, after) ∧
      after.numBids = snapshot.numBids ∧ after.numAsks = snapshot.numAsks ∧
      after.read = .ok { message with maxOrders := 0 } := by
  obtain ⟨hsymbol, _, hbidEntries, haskEntries⟩ := SnapshotBuffer.read_eq_ok hread
  have hbidCount := LevelArrays.length_of_readEntries hbidEntries
  have haskCount := LevelArrays.length_of_readEntries haskEntries
  let bids := message.bids.map (levelItem cjson)
  let asks := message.asks.map (levelItem cjson)
  refine ⟨cjson.print (snapshotRoot cjson message),
    { symbol := (CharArray.zero 16).strncpy message.symbol
      numBids := bids.length
      numAsks := asks.length
      maxOrders := 0
      bids := some (writeLevels cjson (fresh.1.malloc bids.length) 0 bids)
      asks := some (writeLevels cjson (fresh.2.malloc asks.length) 0 asks) }, ?_, ?_, ?_, ?_, ?_⟩
  · rw [serializeBookSnapshot, hread]
    rfl
  · rw [parseBookSnapshot, hprint]
    rfl
  · simp [bids, hbidCount, hnumBids]
  · simp [asks, haskCount, hnumAsks]
  · obtain ⟨hplain, hfits⟩ := CharArray.text_eq_ok hsymbol
    have hbidsBack := readEntries_levelItems cjson hbids fresh.1
    have hasksBack := readEntries_levelItems cjson hasks fresh.2
    dsimp only at hbidsBack hasksBack
    rw [SnapshotBuffer.read]
    dsimp only
    rw [CharArray.text_zero_strncpy hplain hfits, hbidsBack, hasksBack]
    rfl

/-! ## All messages -/

/-- Parsing undoes serializing: into structs of zeros, an order, a trade and a snapshot
are parsed back with every field they had but the `max_orders` of a snapshot, which stays
zero. -/
theorem parse_serialize_messages (cjson : CJson α) (price : α) :
    (∀ (order : OrderBuffer α) message, order.read = .ok message → IsInt order.quantity →
      cjson.parse (cjson.print (orderRoot cjson message)) = some (orderRoot cjson message) →
      ∃ json after, serializeOrderMessage cjson order = .ok json ∧
        parseOrderMessage cjson json (.zero price) = .ok (true, after) ∧
        after.read = .ok message) ∧
    (∀ (trade : TradeBuffer α) message, trade.read = .ok message → IsInt trade.quantity →
      -2 ^ 53 ≤ trade.timestamp → trade.timestamp ≤ 2 ^ 53 →
      cjson.parse (cjson.print (tradeRoot cjson message)) = some (tradeRoot cjson message) →
      ∃ json after, serializeTradeMessage cjson trade = .ok json ∧
        parseTradeMessage cjson json (.zero price) = .ok (true, after) ∧
        after.read = .ok message) ∧
    (∀ (snapshot : SnapshotBuffer α) message fresh, snapshot.read = .ok message →
      (∀ entry ∈ message.bids, IsInt entry.2) → (∀ entry ∈ message.asks, IsInt entry.2) →
      0 ≤ snapshot.numBids → 0 ≤ snapshot.numAsks →
      cjson.parse (cjson.print (snapshotRoot cjson message)) =
        some (snapshotRoot cjson message) →
      ∃ json after, serializeBookSnapshot cjson snapshot = .ok json ∧
        parseBookSnapshot cjson json (some fresh) .zero = .ok (true, after) ∧
        after.numBids = snapshot.numBids ∧ after.numAsks = snapshot.numAsks ∧
        after.read = .ok { message with maxOrders := 0 }) := by
  refine ⟨?_, ?_, ?_⟩
  · intro order message hread hquantity hprint
    exact parse_serialize_order hread hquantity hprint price
  · intro trade message hread hquantity hlower hupper hprint
    exact parse_serialize_trade hread hquantity hlower hupper hprint price
  · intro snapshot message fresh hread hbids hasks hnumBids hnumAsks hprint
    exact parse_serialize_snapshot hread hbids hasks hnumBids hnumAsks hprint fresh

/-- An order of five shares. -/
def fiveShares : OrderMessage ℚ where
  symbol := "AAPL".toList
  orderId := "O1".toList
  traderId := "T1".toList
  price := 10
  quantity := 5
  isBuy := true

/-- That order in memory. -/
def fiveSharesBuffer : OrderBuffer ℚ where
  symbol := (CharArray.zero 16).strncpy "AAPL".toList
  orderId := (CharArray.zero 32).strncpy "O1".toList
  traderId := (CharArray.zero 32).strncpy "T1".toList
  price := 10
  quantity := 5
  isBuy := true

/-- A trade of five shares. -/
def fiveTraded : TradeMessage ℚ where
  symbol := "AAPL".toList
  buyOrderId := "O1".toList
  sellOrderId := "O2".toList
  price := 10
  quantity := 5
  timestamp := 7

/-- That trade in memory. -/
def fiveTradedBuffer : TradeBuffer ℚ where
  symbol := (CharArray.zero 16).strncpy "AAPL".toList
  buyOrderId := (CharArray.zero 32).strncpy "O1".toList
  sellOrderId := (CharArray.zero 32).strncpy "O2".toList
  price := 10
  quantity := 5
  timestamp := 7

/-- A snapshot with one bid. -/
def oneBid : BookSnapshot ℚ where
  symbol := "AAPL".toList
  maxOrders := 2
  bids := [(10, 5)]
  asks := []

/-- That snapshot in memory, with arrays for two levels. -/
def oneBidBuffer : SnapshotBuffer ℚ where
  symbol := (CharArray.zero 16).strncpy "AAPL".toList
  numBids := 1
  numAsks := 0
  maxOrders := 2
  bids := some { prices := [10, 0], quantities := [5, 0] }
  asks := some { prices := [0, 0], quantities := [0, 0] }

/-- Memory that held nines. -/
def ninesMemory : FreshMemory ℚ where
  prices := fun _ => 9
  quantities := fun _ => 9

/-- A library that parses back these three messages. -/
def echoJson : CJson ℚ :=
  let numbers := CJson.table [] []
  { CJson.table [("order".toList, orderRoot numbers fiveShares),
      ("trade".toList, tradeRoot numbers fiveTraded),
      ("snapshot".toList, snapshotRoot numbers oneBid)] [] with
    print := fun root =>
      if (root.getObjectItem "bids").isSome then "snapshot".toList
      else if (root.getObjectItem "timestamp").isSome then "trade".toList
      else "order".toList }

/-- These three messages are parsed back. -/
theorem parse_serialize_messages_five :
    (∃ json after, serializeOrderMessage echoJson fiveSharesBuffer = .ok json ∧
      parseOrderMessage echoJson json (.zero 0) = .ok (true, after) ∧
      after.read = .ok fiveShares) ∧
    (∃ json after, serializeTradeMessage echoJson fiveTradedBuffer = .ok json ∧
      parseTradeMessage echoJson json (.zero 0) = .ok (true, after) ∧
      after.read = .ok fiveTraded) ∧
    (∃ json after, serializeBookSnapshot echoJson oneBidBuffer = .ok json ∧
      parseBookSnapshot echoJson json (some (ninesMemory, ninesMemory)) .zero =
        .ok (true, after) ∧ after.numBids = 1 ∧ after.numAsks = 0 ∧
      after.read = .ok { oneBid with maxOrders := 0 }) := by
  obtain ⟨horder, htrade, hsnapshot⟩ := parse_serialize_messages echoJson 0
  refine ⟨?_, ?_, ?_⟩
  · exact horder fiveSharesBuffer fiveShares (by decide +kernel) (by decide) rfl
  · exact htrade fiveTradedBuffer fiveTraded (by decide +kernel) (by decide) (by decide)
      (by decide) rfl
  · exact hsnapshot oneBidBuffer oneBid (ninesMemory, ninesMemory) (by decide +kernel) (by decide)
      (by decide) (by decide) (by decide) rfl

/-- The snapshot had `max_orders` two, and is parsed back with zero. -/
theorem max_orders_not_serialized :
    oneBidBuffer.read = .ok oneBid ∧
      ((serializeBookSnapshot echoJson oneBidBuffer).bind fun json =>
        (parseBookSnapshot echoJson json (some (ninesMemory, ninesMemory)) .zero).map fun result =>
          (result.1, result.2.maxOrders)) = .ok (true, 0) ∧
      oneBidBuffer.maxOrders ≠ 0 := by
  decide +kernel

end QuantTrading
