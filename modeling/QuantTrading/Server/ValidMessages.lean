import QuantTrading.Protocol.OutgoingValidation
import QuantTrading.Protocol.Serialization
import QuantTrading.Server.Admission
import QuantTrading.Server.SentMessages
import QuantTrading.Server.WholeNumbers

/-! # What a server of valid orders sends

As long as every text that places an order places a valid one, the trades and the
snapshots that the server sends are valid as well: the validators of the messages to the
clients never refuse one. A snapshot is still valid when a client has parsed it; a trade is
looked at as the server makes it, since no client parses one.
-/

namespace QuantTrading

variable {α : Type} [LT α] [DecidableLT α] {limits : PriceLimits α}

/-- What is sent for a trade, with the time of the call. -/
def TradeEvent.message {ι : Type*} (event : TradeEvent α ι) (timestamp : Int) :
    TradeMessage α where
  symbol := event.symbol
  buyOrderId := event.buyOrderId
  sellOrderId := event.sellOrderId
  price := event.price
  quantity := event.quantity
  timestamp := timestamp

/-- The orders that are accepted, as a property of the orders that are placed. -/
def Accepted (limits : PriceLimits α) (order : OrderMessage α) : Prop :=
  (validateOrderMessage limits order).isOk = true

/-- A part of an accepted order is a valid quantity. -/
theorem Accepted.quantity {order : OrderMessage α} (haccepted : Accepted limits order)
    {quantity : Int} (hpos : 0 < quantity) (hle : quantity ≤ order.quantity) :
    validateQuantity quantity = true := by
  obtain ⟨_, _, _, _, hwhole⟩ := validateOrderMessage_isOk_iff.mp haccepted
  exact validateQuantity_iff.mpr ⟨hpos, hle.trans (validateQuantity_iff.mp hwhole).2⟩

/-- A level that shows a part of an accepted order. -/
theorem ShowsPart.valid {level : α × Int} {order : OrderMessage α}
    (hshows : ShowsPart level order) (haccepted : Accepted limits order) :
    validateLevel limits level = true := by
  obtain ⟨_, _, _, hprice, _⟩ := validateOrderMessage_isOk_iff.mp haccepted
  refine Bool.and_eq_true_iff.mpr ⟨?_, haccepted.quantity hshows.quantity_pos hshows.quantity_le⟩
  rwa [hshows.price]

/-- A trade between accepted orders. -/
theorem TradeEvent.Between.valid {ι : Type*} {event : TradeEvent α ι} {buy sell : OrderMessage α}
    (hbetween : event.Between buy sell) (hbuy : Accepted limits buy)
    (hsell : Accepted limits sell) (timestamp : Int) :
    validateTradeMessage limits (event.message timestamp) = .ok () := by
  have hquantity := hbuy.quantity hbetween.quantity_pos hbetween.quantity_le.1
  obtain ⟨hbuyId, _, hsymbol, _, _⟩ := validateOrderMessage_isOk_iff.mp hbuy
  obtain ⟨hsellId, _, _, hprice, _⟩ := validateOrderMessage_isOk_iff.mp hsell
  rw [← hbetween.symbol] at hsymbol
  rw [← hbetween.buyOrderId] at hbuyId
  rw [← hbetween.sellOrderId] at hsellId
  rw [← hbetween.price] at hprice
  exact validateTradeMessage_ok_iff.mpr ⟨hsymbol, hbuyId, hsellId, hprice, hquantity⟩

/-! ## The messages of a run -/

/-- A snapshot that is accepted in every struct that holds it, and again after it has been
sent and parsed. -/
def AcceptedSnapshot (cjson : CJson α) (limits : PriceLimits α) (sent : BookSnapshot α) : Prop :=
  ∀ built : SnapshotBuffer α, built.read = .ok sent → 0 ≤ built.numBids → 0 ≤ built.numAsks →
    validateBookSnapshot limits built = .ok (.ok ()) ∧
    (cjson.parse (cjson.print (snapshotRoot cjson sent)) = some (snapshotRoot cjson sent) →
      ∀ fresh, ∃ json received, serializeBookSnapshot cjson built = .ok json ∧
        parseBookSnapshot cjson json (some fresh) .zero = .ok (true, received) ∧
        validateBookSnapshot limits received = .ok (.ok ()))

omit [LT α] [DecidableLT α] in
theorem isInt_of_validateQuantity {quantity : Int} (hvalid : validateQuantity quantity = true) :
    IsInt quantity := by
  obtain ⟨hmin, hmax⟩ := validateQuantity_iff.mp hvalid
  unfold minQuantity at hmin
  unfold maxQuantity at hmax
  unfold IsInt intMin intMax
  omega

theorem isInt_of_validateLevel {level : α × Int} (hlevel : validateLevel limits level = true) :
    IsInt level.2 :=
  isInt_of_validateQuantity (Bool.and_eq_true_iff.mp hlevel).2

theorem acceptedSnapshot_of_valid {cjson : CJson α} {sent : BookSnapshot α}
    (hsymbol : validateSymbol sent.symbol = true)
    (hbids : ∀ level ∈ sent.bids, validateLevel limits level = true)
    (hasks : ∀ level ∈ sent.asks, validateLevel limits level = true) :
    AcceptedSnapshot cjson limits sent := by
  intro built hread hnumBids hnumAsks
  refine ⟨validateBookSnapshot_of_valid hread hnumBids hnumAsks hsymbol hbids hasks, ?_⟩
  intro hprint fresh
  obtain ⟨json, received, hjson, hparse, hbidCount, haskCount, hreceived⟩ :=
    parse_serialize_snapshot hread (fun level hlevel => isInt_of_validateLevel (hbids level hlevel))
      (fun level hlevel => isInt_of_validateLevel (hasks level hlevel)) hnumBids hnumAsks hprint
      fresh
  refine ⟨json, received, hjson, hparse, ?_⟩
  exact validateBookSnapshot_of_valid hreceived (by omega) (by omega) hsymbol hbids hasks

/-- A snapshot of accepted orders. -/
theorem BookSnapshot.MadeOf.accepted {sent : BookSnapshot α}
    (hmade : sent.MadeOf (Accepted limits)) (cjson : CJson α) :
    AcceptedSnapshot cjson limits sent := by
  apply acceptedSnapshot_of_valid
  · obtain ⟨order, haccepted, htaken⟩ := hmade.symbol
    obtain ⟨_, _, hsymbol, _⟩ := validateOrderMessage_isOk_iff.mp haccepted
    rwa [htaken, List.take_of_length_le (Nat.le_of_lt_succ (length_of_validateSymbol hsymbol))]
  · intro level hlevel
    obtain ⟨order, haccepted, hshows⟩ := hmade.bids level hlevel
    exact hshows.valid haccepted
  · intro level hlevel
    obtain ⟨order, haccepted, hshows⟩ := hmade.asks level hlevel
    exact hshows.valid haccepted

section Runs

variable {α : Type} [LinearOrder α] {limits : PriceLimits α}

/-- A call of an admissible text places an accepted order, or none. -/
theorem placesWith_of_admissible {cjson : CJson α} {item : WorkItem α}
    (hadmissible : admissible cjson limits item = true) {call : ClientMessage α}
    (hdecode : decodeMessage cjson item.message item.frame = .ok (.ok call)) :
    ServerHandlers.PlacesWith (Accepted limits) call := by
  rintro created confirmed order rfl
  rwa [admissible, hdecode] at hadmissible

/-- A run of admissible texts keeps accepted orders only. -/
theorem serve_madeOf {cjson : CJson α} {orders : Nat → Order α}
    {broadcaster : Option TradeBroadcaster} {items : List (WorkItem α)}
    {handlers : ServerHandlers α} (hitems : ∀ item ∈ items, admissible cjson limits item = true)
    (hserve : serve cjson (ServerHandlers.create orders broadcaster) items = .ok handlers) :
    handlers.MadeOf (Accepted limits) := by
  refine serve_invariant (ServerHandlers.MadeOf (Accepted limits)) ?_
    (.create orders broadcaster) hserve
  intro current call item hitem hcurrent hdecode
  exact hcurrent.handle (placesWith_of_admissible (hitems item hitem) hdecode)

/-- One more admissible text, and what is sent for it. -/
theorem ServerHandlers.MadeOf.work {cjson : CJson α} {handlers after : ServerHandlers α}
    (hmade : handlers.MadeOf (Accepted limits)) {item : WorkItem α}
    (hadmissible : admissible cjson limits item = true) {responses : List (Response α)}
    (hwork : handlers.work cjson item = .ok (after, responses)) :
    after.MadeOf (Accepted limits) ∧
      ∀ sent, .bookSnapshot sent ∈ responses → sent.MadeOf (Accepted limits) := by
  unfold ServerHandlers.work at hwork
  cases hdecode : decodeMessage cjson item.message item.frame with
  | error fault =>
      rw [hdecode] at hwork
      cases hwork
  | ok decoded =>
      rw [hdecode] at hwork
      cases decoded with
      | error reason =>
          cases hwork
          exact ⟨hmade, fun sent hsent => absurd hsent (by simp)⟩
      | ok call =>
          exact hmade.sends (placesWith_of_admissible hadmissible hdecode) (Except.ok.inj hwork)

/-- When no text of a run places an invalid order, `validate_trade_message` accepts the
values of every trade that the server has sent, and `validate_book_snapshot` every snapshot,
in the struct of the server and, after it was parsed, in that of the client. -/
theorem serve_messages_valid (cjson : CJson α) (limits : PriceLimits α)
    (orders : Nat → Order α) (broadcaster : Option TradeBroadcaster)
    (items : List (WorkItem α)) (item : WorkItem α)
    (hitems : ∀ other ∈ item :: items, admissible cjson limits other = true)
    {handlers after : ServerHandlers α} {responses : List (Response α)}
    (hserve : serve cjson (ServerHandlers.create orders broadcaster) items = .ok handlers)
    (hwork : handlers.work cjson item = .ok (after, responses)) :
    (∀ event ∈ after.trades, ∀ timestamp,
      validateTradeMessage limits (event.message timestamp) = .ok ()) ∧
    ∀ sent, .bookSnapshot sent ∈ responses → AcceptedSnapshot cjson limits sent := by
  obtain ⟨hitem, hrun⟩ := List.forall_mem_cons.mp hitems
  obtain ⟨hmade, hsent⟩ := (serve_madeOf hrun hserve).work hitem hwork
  refine ⟨fun event hevent => ?_, fun sent hmem => (hsent sent hmem).accepted cjson⟩
  obtain ⟨buy, sell, hbuy, hsell, hbetween⟩ := hmade.trades event hevent
  exact hbetween.valid hbuy hsell

end Runs

/-- A place message for `AAPL` at ten. -/
def crossingRoot (orderId : String) (quantity : Int) (isBuy : Bool) : Json Int :=
  .object
    [("type".toList, .number 1), ("order_id".toList, .string orderId.toList),
      ("trader_id".toList, .string "T1".toList), ("symbol".toList, .string "AAPL".toList),
      ("price".toList, .number 10), ("quantity".toList, .number quantity),
      ("is_buy".toList, .bool isBuy)]

/-- A request for the book of `AAPL`. -/
def requestRoot : Json Int :=
  .object [("type".toList, .number 3), ("symbol".toList, .string "AAPL".toList)]

/-- A trade of five of seven shares, and what is left of the bid. -/
theorem serve_messages_valid_crossing :
    ∃ handlers after responses,
      serve printedJson wholeStart
        [wholeItem (printedJson.print (crossingRoot "B1" 7 true)),
          wholeItem (printedJson.print (crossingRoot "S1" 5 false))] = .ok handlers ∧
      handlers.work printedJson (wholeItem (printedJson.print requestRoot)) =
        .ok (after, responses) ∧
      after.trades.length = 1 ∧ responses.length = 1 ∧
      (∀ event ∈ after.trades, ∀ timestamp,
        validateTradeMessage ⟨1, 1000000⟩ (event.message timestamp) = .ok ()) ∧
      ∀ sent, .bookSnapshot sent ∈ responses →
        AcceptedSnapshot printedJson ⟨1, 1000000⟩ sent := by
  have hrun : (serve printedJson wholeStart
      [wholeItem (printedJson.print (crossingRoot "B1" 7 true)),
        wholeItem (printedJson.print (crossingRoot "S1" 5 false))]).map (fun handlers =>
      (handlers.work printedJson (wholeItem (printedJson.print requestRoot))).map fun result =>
        (result.1.trades.length, result.2.length)) = .ok (.ok (1, 1)) := by decide +kernel
  obtain ⟨handlers, hserve, hrest⟩ := exists_of_map_eq_ok hrun
  obtain ⟨⟨after, responses⟩, hwork, hlengths⟩ := exists_of_map_eq_ok hrest
  obtain ⟨htrades, hresponses⟩ := Prod.mk.inj hlengths
  refine ⟨handlers, after, responses, hserve, hwork, htrades, hresponses, ?_⟩
  exact serve_messages_valid printedJson ⟨1, 1000000⟩ _ _ _ _ (by decide +kernel) hserve hwork

end QuantTrading
