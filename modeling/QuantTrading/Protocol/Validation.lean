import QuantTrading.Protocol.Messages

/-! # Validation of order messages

The checks of `protocol_validation.c` with the limits of `protocol_constants.h`.
The two price limits are a parameter, since prices are generic.
-/

namespace QuantTrading

/-- `MIN_PRICE` and `MAX_PRICE`. -/
structure PriceLimits (α : Type*) where
  minPrice : α
  maxPrice : α

/-- `MIN_PRICE` and `MAX_PRICE` as exact numbers. -/
def exactLimits : PriceLimits ℚ where
  minPrice := 1 / 10000
  maxPrice := 1000000

/-- `MIN_QUANTITY`. -/
def minQuantity : Int := 1

/-- `MAX_QUANTITY`. -/
def maxQuantity : Int := 1000000

/-- `MAX_ORDER_ID_LENGTH`. -/
def maxOrderIdLength : Nat := 32

/-- `MAX_TRADER_ID_LENGTH`. -/
def maxTraderIdLength : Nat := 32

/-- `VALID_SYMBOLS`. -/
def validSymbols : List CString :=
  ["AAPL".toList, "GOOG".toList, "MSFT".toList, "AMZN".toList, "TSLA".toList]

/-- The limit `MAX_SYMBOL_LENGTH` of `protocol_constants.h`, the same as in `order.h`. -/
def validateSymbol (symbol : CString) : Bool :=
  if symbol.length = 0 ∨ maxSymbolLength ≤ symbol.length then false
  else validSymbols.contains symbol

/-- The two checks of an id: its length and its characters. -/
def validateId (maxLength : Nat) (allowed : Char → Bool) (id : CString) : Bool :=
  if id.length = 0 ∨ maxLength ≤ id.length then false
  else id.all allowed

/-- `validate_order_id`. -/
def validateOrderId (orderId : CString) : Bool :=
  validateId maxOrderIdLength (fun c => c.isAlphanum || c = '_' || c = '-') orderId

/-- `validate_trader_id`. -/
def validateTraderId (traderId : CString) : Bool :=
  validateId maxTraderIdLength (fun c => c.isAlphanum || c = '_') traderId

/-- `validate_price`. -/
def validatePrice {α : Type*} [LT α] [DecidableLT α] (limits : PriceLimits α) (price : α) : Bool :=
  if price < limits.minPrice ∨ limits.maxPrice < price then false else true

/-- `validate_quantity`. -/
def validateQuantity (quantity : Int) : Bool :=
  if quantity < minQuantity ∨ maxQuantity < quantity then false else true

/-- The error texts of `validate_order_message`, each with the value it quotes. -/
inductive ValidationError (α : Type*) where
  | invalidOrderId (orderId : CString) : ValidationError α
  | invalidTraderId (traderId : CString) : ValidationError α
  | invalidSymbol (symbol : CString) : ValidationError α
  | invalidPrice (price : α) : ValidationError α
  | invalidQuantity (quantity : Int) : ValidationError α
deriving DecidableEq, Repr

variable {α : Type*} [LT α] [DecidableLT α]

/-- `validate_order_message`: the first check that fails. -/
def validateOrderMessage (limits : PriceLimits α) (order : OrderMessage α) :
    Except (ValidationError α) Unit :=
  if !validateOrderId order.orderId then .error (.invalidOrderId order.orderId)
  else if !validateTraderId order.traderId then .error (.invalidTraderId order.traderId)
  else if !validateSymbol order.symbol then .error (.invalidSymbol order.symbol)
  else if !validatePrice limits order.price then .error (.invalidPrice order.price)
  else if !validateQuantity order.quantity then .error (.invalidQuantity order.quantity)
  else .ok ()

theorem validateQuantity_iff {quantity : Int} :
    validateQuantity quantity = true ↔ minQuantity ≤ quantity ∧ quantity ≤ maxQuantity := by
  rw [validateQuantity]
  split_ifs with hout <;> simp <;> omega

/-- The terms of an order as a message. -/
def Order.message {α : Type*} (order : Order α) : OrderMessage α where
  symbol := order.symbol
  orderId := order.orderId
  traderId := order.traderId
  price := order.price
  quantity := order.quantity
  isBuy := order.isBuyOrder

theorem Order.terms_message {α : Type*} (order : Order α) :
    order.terms.message = order.message := rfl

/-- An order that `validate_order_message` accepts. -/
def Order.Valid (limits : PriceLimits α) (order : Order α) : Prop :=
  (validateOrderMessage limits order.message).isOk = true

/-- An order is created with the fields of the message. -/
theorem Order.create_message {α : Type*} {message : OrderMessage α} {now : Int} {order : Order α}
    (hcreate : Order.create message.orderId message.traderId message.symbol message.price
      message.quantity message.isBuy now = some order) :
    order.message = message := by
  unfold Order.create at hcreate
  split_ifs at hcreate
  cases hcreate
  rfl

end QuantTrading
