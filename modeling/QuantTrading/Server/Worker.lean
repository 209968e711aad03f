import QuantTrading.Protocol.Validation
import QuantTrading.Server.Registry
import QuantTrading.Server.StoredOrders

/-! # The workers

What `worker_thread` does with a text it has dequeued: find its type, look up the
handler of that type and run it. The handlers get the parsed JSON value;
`handle_place_order` prints it and parses it again as an order, into a struct on
its stack. Orders are not validated on the way to a book.
-/

namespace QuantTrading

variable {α : Type} (cjson : CJson α)

/-- The table `message_handlers`, by type. -/
def messageHandlers : List ClientMessageType :=
  [.placeOrder, .cancelOrder, .requestBook]

/-- What handling a message reads besides the message: the clock, twice, and the
struct `OrderMessage` on the stack as it was. -/
structure WorkerFrame (α : Type) where
  created : Int
  confirmed : Int
  stack : OrderBuffer α

/-- What `handle_place_order` works on, `none` when parsing failed. -/
def placeRequest (root : Json α) (stack : OrderBuffer α) :
    Except Fault (Option (OrderMessage α)) :=
  match parseOrderMessage cjson (cjson.print root) stack with
  | .error fault => .error fault
  | .ok (false, _) => .ok none
  | .ok (true, buffer) =>
      match buffer.read with
      | .error fault => .error fault
      | .ok order => .ok (some order)

theorem placeRequest_eq_received (root : Json α) (stack : OrderBuffer α) :
    placeRequest cjson root stack =
      received OrderBuffer.read (parseOrderMessage cjson (cjson.print root) stack) := by
  unfold placeRequest received
  cases parseOrderMessage cjson (cjson.print root) stack with
  | error fault => rfl
  | ok result =>
      obtain ⟨success, buffer⟩ := result
      cases success with
      | false => rfl
      | true =>
          dsimp only
          cases buffer.read with
          | error fault => rfl
          | ok order => rfl

/-- What `handle_place_order` works on when all the members are there. -/
theorem placeRequest_of_members {cjson : CJson α} {root : Json α} {stack : OrderBuffer α}
    {orderId traderId symbol : CString} {price quantity isBuy : Json α}
    (hprint : cjson.parse (cjson.print root) = some root) (hstrings : root.PlainStrings)
    (horderId : root.getObjectItem "order_id" = some (.string orderId))
    (htraderId : root.getObjectItem "trader_id" = some (.string traderId))
    (hsymbol : root.getObjectItem "symbol" = some (.string symbol))
    (hprice : root.getObjectItem "price" = some price)
    (hquantity : root.getObjectItem "quantity" = some quantity)
    (hisBuy : root.getObjectItem "is_buy" = some isBuy) :
    placeRequest cjson root stack =
      if stack.symbol.Holds symbol ∧ stack.orderId.Holds orderId ∧
          stack.traderId.Holds traderId then
        .ok (some
          { symbol := symbol.take 15
            orderId := orderId.take 31
            traderId := traderId.take 31
            price := price.valuedouble cjson
            quantity := quantity.valueint cjson
            isBuy := isBuy.isTrue })
      else .error .outOfBounds := by
  rw [placeRequest_eq_received]
  exact received_parseOrderMessage hprint hstrings horderId htraderId hsymbol hprice hquantity
    hisBuy stack

/-- The order as `parse_order_message` cuts off its strings. -/
def OrderMessage.cut (given : OrderMessage α) : OrderMessage α :=
  { given with
    orderId := given.orderId.take 31
    traderId := given.traderId.take 31
    symbol := given.symbol.take 15 }

/-- Every string of an order ends inside its field of the struct into which it is parsed:
it is shorter than what is copied, or the last byte of the field was zero before. -/
def OrderBuffer.Holds (stack : OrderBuffer α) (given : OrderMessage α) : Prop :=
  stack.symbol.Holds given.symbol ∧ stack.orderId.Holds given.orderId ∧
    stack.traderId.Holds given.traderId

instance (stack : OrderBuffer α) (given : OrderMessage α) : Decidable (stack.Holds given) :=
  inferInstanceAs (Decidable (_ ∧ _ ∧ _))

/-- What `handle_cancel_order` looks up. -/
def cancelRequest (root : Json α) : CancelRequest where
  orderId := (root.getObjectItem "order_id").bind Json.valuestring
  symbol := (root.getObjectItem "symbol").bind Json.valuestring
  isBuy := (root.getObjectItem "is_buy").map (Json.valueint cjson)

/-- The call that the handler table leads to. -/
def handlerCall (root : Json α) (frame : WorkerFrame α) :
    ClientMessageType → Except Fault (ClientMessage α)
  | .placeOrder =>
      match placeRequest cjson root frame.stack with
      | .error fault => .error fault
      | .ok order => .ok (.placeOrder frame.created frame.confirmed order)
  | .cancelOrder => .ok (.cancelOrder frame.confirmed (cancelRequest cjson root))
  | _ => .ok (.requestBook ((root.getObjectItem "symbol").bind Json.valuestring))

/-- The call for a text, or the reason that is sent instead. -/
def decodeMessage (message : CString) (frame : WorkerFrame α) :
    Except Fault (Except String (ClientMessage α)) :=
  match parseBaseMessage cjson message with
  | none => .ok (.error "Invalid message format")
  | some msgType =>
      match cjson.parse message with
      | none => .ok (.error "Invalid JSON")
      | some root =>
          match messageHandlers.find? fun handler => handler.code = msgType with
          | none => .ok (.error "Unsupported message type")
          | some handler =>
              match handlerCall cjson root frame handler with
              | .error fault => .error fault
              | .ok call => .ok (.ok call)

/-- A text a worker has dequeued, with the frame it is handled in. -/
structure WorkItem (α : Type) where
  message : CString
  frame : WorkerFrame α

variable [LT α] [DecidableLT α] [BEq α]

/-- The body of the loop of `worker_thread`. -/
def ServerHandlers.work (handlers : ServerHandlers α) (item : WorkItem α) :
    Except Fault (ServerHandlers α × List (Response α)) :=
  match decodeMessage cjson item.message item.frame with
  | .error fault => .error fault
  | .ok (.error reason) => .ok (handlers, [.error reason])
  | .ok (.ok call) => .ok (handlers.handle call)

/-- The state of the server after one more text. A fault ends the process. -/
def workStep (state : Except Fault (ServerHandlers α)) (item : WorkItem α) :
    Except Fault (ServerHandlers α) :=
  match state with
  | .error fault => .error fault
  | .ok handlers => (handlers.work cjson item).map Prod.fst

/-- The state after a list of texts, handled one at a time. -/
def serve (handlers : ServerHandlers α) (items : List (WorkItem α)) :
    Except Fault (ServerHandlers α) :=
  Transition.run (workStep cjson) (.ok handlers) items

end QuantTrading
