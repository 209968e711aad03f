import Mathlib.Order.Basic

/-! # Orders

The order record of `order.c` and the operations on it. Prices are only ever
compared, so the record is generic in their type: a C `double` has a `<` and an
`==` that are both false at NaN, and results that need more of a price assume a
linear order. Quantities and timestamps are integers; no modelled operation
leaves the range of the C type it starts in.

A C string is the list of its characters before the terminating NUL.
-/

namespace QuantTrading

/-- A NUL-terminated string, without the NUL. -/
abbrev CString := List Char

/-- `MAX_ID_LENGTH` of `order.h`. -/
def maxIdLength : Nat := 64

/-- `MAX_SYMBOL_LENGTH` of `order.h`. -/
def maxSymbolLength : Nat := 16

/-- `INT_MAX`. -/
def intMax : Int := 2147483647

/-- `INT_MIN`. -/
def intMin : Int := -2147483648

/-- An `int`. -/
def IsInt (value : Int) : Prop :=
  intMin ≤ value ∧ value ≤ intMax

instance (value : Int) : Decidable (IsInt value) :=
  inferInstanceAs (Decidable (_ ∧ _))

/-- `struct Order`. -/
structure Order (α : Type*) where
  orderId : CString
  traderId : CString
  symbol : CString
  price : α
  quantity : Int
  remainingQuantity : Int
  isBuyOrder : Bool
  timestamp : Int
  isCanceled : Bool
deriving DecidableEq, Repr

namespace Order

variable {α : Type*}

/-- `order_create`, with `now` the value of `time(NULL)`. Overlong strings are
refused; allocation is assumed to succeed. -/
def create (orderId traderId symbol : CString) (price : α) (quantity : Int)
    (isBuyOrder : Bool) (now : Int) : Option (Order α) :=
  if maxIdLength ≤ orderId.length ∨ maxIdLength ≤ traderId.length ∨
      maxSymbolLength ≤ symbol.length then
    none
  else
    some
      { orderId := orderId
        traderId := traderId
        symbol := symbol
        price := price
        quantity := quantity
        remainingQuantity := quantity
        isBuyOrder := isBuyOrder
        timestamp := now
        isCanceled := false }

/-- A newly created order of trader `T` in `AAPL`, for concrete runs. -/
def sample (orderId : String) (price : α) (quantity : Int) (isBuyOrder : Bool) (now : Int) :
    Order α :=
  { orderId := orderId.toList
    traderId := "T".toList
    symbol := "AAPL".toList
    price := price
    quantity := quantity
    remainingQuantity := quantity
    isBuyOrder := isBuyOrder
    timestamp := now
    isCanceled := false }

/-- `order_reduce_quantity`: the return code and the order afterwards. -/
def reduceQuantity (order : Order α) (amount : Int) : Int × Order α :=
  if amount < 0 then (-1, order)
  else if amount > order.remainingQuantity then (-1, order)
  else (0, { order with remainingQuantity := order.remainingQuantity - amount })

/-- `order_cancel`: cancelling twice changes nothing. -/
def cancel (order : Order α) : Order α :=
  if order.isCanceled then order else { order with isCanceled := true }

/-- `order_compare`: negative when the first order has priority. -/
def compare [LT α] [DecidableLT α] [BEq α] (first second : Order α) : Int :=
  if first.price != second.price then
    if first.isBuyOrder then
      if first.price > second.price then -1 else 1
    else
      if first.price < second.price then -1 else 1
  else if first.timestamp ≠ second.timestamp then
    if first.timestamp < second.timestamp then -1 else 1
  else 0

/-- What `order_create` guarantees of the fields that later change. -/
structure Fresh (order : Order α) : Prop where
  unfilled : order.remainingQuantity = order.quantity
  active : order.isCanceled = false

instance (order : Order α) : Decidable order.Fresh :=
  decidable_of_iff (order.remainingQuantity = order.quantity ∧ order.isCanceled = false)
    ⟨fun h => ⟨h.1, h.2⟩, fun h => ⟨h.unfilled, h.active⟩⟩

/-- An order that can still trade. -/
def Live (order : Order α) : Prop :=
  order.isCanceled = false ∧ 0 < order.remainingQuantity

instance (order : Order α) : Decidable order.Live :=
  inferInstanceAs (Decidable (_ ∧ _))

/-- The fields that no operation of a book changes. -/
def terms (order : Order α) : Order α :=
  { order with remainingQuantity := 0, isCanceled := false }

theorem create_fresh {orderId traderId symbol : CString} {price : α} {quantity : Int}
    {isBuyOrder : Bool} {now : Int} {order : Order α}
    (hcreate : create orderId traderId symbol price quantity isBuyOrder now = some order) :
    order.Fresh := by
  unfold create at hcreate
  split at hcreate
  · cases hcreate
  · cases hcreate
    exact ⟨rfl, rfl⟩

/-- An order is only created for a symbol that fits its field. -/
theorem create_symbol {orderId traderId symbol : CString} {price : α} {quantity : Int}
    {isBuyOrder : Bool} {now : Int} {order : Order α}
    (hcreate : create orderId traderId symbol price quantity isBuyOrder now = some order) :
    symbol.length < maxSymbolLength ∧ order.symbol = symbol := by
  unfold create at hcreate
  split at hcreate
  · cases hcreate
  · rename_i hfits
    cases hcreate
    exact ⟨Nat.lt_of_not_le fun hlong => hfits (Or.inr (Or.inr hlong)), rfl⟩

theorem sample_fresh (orderId : String) (price : α) (quantity : Int) (isBuyOrder : Bool)
    (now : Int) : (sample orderId price quantity isBuyOrder now).Fresh :=
  ⟨rfl, rfl⟩

/-- Reducing by an amount the order still has succeeds. -/
theorem reduceQuantity_of_le {order : Order α} {amount : Int} (hnonneg : 0 ≤ amount)
    (hle : amount ≤ order.remainingQuantity) :
    order.reduceQuantity amount =
      (0, { order with remainingQuantity := order.remainingQuantity - amount }) := by
  rw [reduceQuantity, if_neg (by omega), if_neg (by omega)]

theorem cancel_eq (order : Order α) : order.cancel = { order with isCanceled := true } := by
  cases order with
  | mk orderId traderId symbol price quantity remaining isBuy timestamp canceled =>
      cases canceled <;> rfl

theorem orderId_eq_of_terms {first second : Order α} (hterms : first.terms = second.terms) :
    first.orderId = second.orderId := by
  change first.terms.orderId = second.terms.orderId
  rw [hterms]

theorem quantity_eq_of_terms {first second : Order α} (hterms : first.terms = second.terms) :
    first.quantity = second.quantity := by
  change first.terms.quantity = second.terms.quantity
  rw [hterms]

@[simp] theorem terms_cancel (order : Order α) : order.cancel.terms = order.terms := by
  rw [cancel_eq]
  rfl

end Order

end QuantTrading
