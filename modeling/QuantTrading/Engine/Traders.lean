import QuantTrading.Engine.OrderBook
import Mathlib.Algebra.Order.Group.Defs
import Mathlib.Algebra.Order.Ring.Defs
import Mathlib.Data.Rat.Cast.Order

/-! # Traders and trades

The functions of `trader.c` and `trade.c`. A buy order is paid for when it is placed,
at its own price; the seller of a trade is credited when the trade is executed, at the
price of the trade. No trader can get below zero, so a balance is not negative.

A market is a book with its traders. Trades are settled as they come out of a call of
`order_book_match_orders`.
-/

namespace QuantTrading

/-- `MAX_TRADER_NAME_LENGTH`. -/
def maxTraderNameLength : Nat := 128

/-- `Trader`. -/
structure Trader (α : Type*) [Zero α] [LE α] where
  traderId : CString
  name : CString
  balance : α
  balance_nonneg : 0 ≤ balance

variable {α ι κ : Type*}

namespace Trader

variable [Ring α] [LinearOrder α]

/-- `trader_create`. The limit for ids is that of `order.h`. -/
def create (traderId name : CString) (balance : α) : Option (Trader α) :=
  if hnegative : balance < 0 then none
  else if maxIdLength ≤ traderId.length ∨ maxTraderNameLength ≤ name.length then none
  else
    some
      { traderId := traderId
        name := name
        balance := balance
        balance_nonneg := not_lt.mp hnegative }

/-- `trader_update_balance`. -/
def updateBalance (trader : Trader α) (amount : α) : Trader α :=
  if hnegative : trader.balance + amount < 0 then trader
  else
    { trader with
      balance := trader.balance + amount
      balance_nonneg := not_lt.mp hnegative }

/-- The funds a buy order needs. -/
def requiredFunds (order : Order α) : α :=
  order.price * order.quantity

variable [IsOrderedAddMonoid α]

/-- `trader_place_order`: the return code, the trader and the book afterwards. -/
def placeOrder (trader : Trader α) (engine : Engine α ι) (order : ι) :
    Int × Trader α × Engine α ι :=
  let record := engine.orders order
  if trader.traderId ≠ record.traderId then (-1, trader, engine)
  else if record.isBuyOrder then
    if hfunds : trader.balance < requiredFunds record then (-1, trader, engine)
    else
      let result := engine.addOrder order
      (result.1,
        { trader with
          balance := trader.balance - requiredFunds record
          balance_nonneg := sub_nonneg.mpr (not_lt.mp hfunds) },
        result.2)
  else
    let result := engine.addOrder order
    (result.1, trader, result.2)

/-- What placing an order does: nothing, add a sell order, or add a buy order that the
trader pays for. -/
theorem placeOrder_cases (trader : Trader α) (engine : Engine α ι) (order : ι) :
    let record := engine.orders order
    let result := trader.placeOrder engine order
    (result = (-1, trader, engine) ∧ ¬ (trader.traderId = record.traderId ∧
      (record.isBuyOrder = true → requiredFunds record ≤ trader.balance))) ∨
    (trader.traderId = record.traderId ∧ record.isBuyOrder = false ∧
      result.2 = (trader, (engine.addOrder order).2)) ∨
    (trader.traderId = record.traderId ∧ record.isBuyOrder = true ∧
      requiredFunds record ≤ trader.balance ∧
      result.2.1.balance = trader.balance - requiredFunds record ∧
      result.2.2 = (engine.addOrder order).2) := by
  intro record result
  by_cases hid : trader.traderId = record.traderId
  · cases hbuy : record.isBuyOrder with
    | false =>
        have hside : ¬ (engine.orders order).isBuyOrder = true := by
          rw [Bool.not_eq_true]
          exact hbuy
        refine Or.inr (Or.inl ⟨hid, rfl, ?_⟩)
        simp only [result, placeOrder]
        rw [if_neg (not_not.mpr hid), if_neg hside]
    | true =>
        have hside : (engine.orders order).isBuyOrder = true := hbuy
        by_cases hfunds : trader.balance < requiredFunds record
        · refine Or.inl ⟨?_, fun haccepted => absurd hfunds (not_lt.mpr (haccepted.2 rfl))⟩
          simp only [result, placeOrder]
          rw [if_neg (not_not.mpr hid), if_pos hside, dif_pos hfunds]
        · refine Or.inr (Or.inr ⟨hid, rfl, not_lt.mp hfunds, ?_, ?_⟩)
          · simp only [result, placeOrder]
            rw [if_neg (not_not.mpr hid), if_pos hside, dif_neg hfunds]
          · simp only [result, placeOrder]
            rw [if_neg (not_not.mpr hid), if_pos hside, dif_neg hfunds]
  · refine Or.inl ⟨?_, fun haccepted => hid haccepted.1⟩
    simp only [result, placeOrder]
    rw [if_pos hid]

end Trader

/-- `Trade`. -/
structure Trade (α : Type*) where
  buyOrderId : CString
  sellOrderId : CString
  tradePrice : α
  tradeQuantity : Int
deriving DecidableEq, Repr

namespace Trade

variable [Ring α] [LinearOrder α]

/-- `trade_create`. The limit for ids is that of `order.h`. -/
def create (buyOrderId sellOrderId : CString) (tradePrice : α) (tradeQuantity : Int) :
    Option (Trade α) :=
  if tradePrice ≤ 0 then none
  else if tradeQuantity ≤ 0 then none
  else if maxIdLength ≤ buyOrderId.length ∨ maxIdLength ≤ sellOrderId.length then none
  else
    some
      { buyOrderId := buyOrderId
        sellOrderId := sellOrderId
        tradePrice := tradePrice
        tradeQuantity := tradeQuantity }

/-- `trade_execute`: the return code and the traders afterwards. The buyer has paid when
the order was placed. -/
def execute [DecidableEq κ] (trade : Trade α) (traders : κ → Trader α) (_buyer seller : κ) :
    Int × (κ → Trader α) :=
  let totalAmount := trade.tradePrice * trade.tradeQuantity
  (0, Function.update traders seller ((traders seller).updateBalance totalAmount))

end Trade

/-- A book and its traders. -/
structure Market (α ι κ : Type*) [Zero α] [LE α] where
  engine : Engine α ι
  traders : κ → Trader α

/-- A call on the market. -/
inductive MarketOp (ι κ : Type*) where
  | place (trader : κ) (order : ι) : MarketOp ι κ
  | cancel (orderId : CString) (isBuyOrder : Bool) : MarketOp ι κ
  | matchOrders : MarketOp ι κ
deriving DecidableEq, Repr

namespace Market

variable [Ring α] [LinearOrder α] [DecidableEq κ]

/-- Settle a trade: the orders belong to their owners. -/
def settle (owner : ι → κ) (traders : κ → Trader α) (event : TradeEvent α ι) : κ → Trader α :=
  match Trade.create event.buyOrderId event.sellOrderId event.price event.quantity with
  | none => traders
  | some trade => (trade.execute traders (owner event.buyOrder) (owner event.sellOrder)).2

variable [IsOrderedAddMonoid α] [DecidableEq ι]

/-- Perform a call on the market. The trades that a call of `order_book_match_orders`
makes are settled in their order. -/
def perform (owner : ι → κ) (market : Market α ι κ) : MarketOp ι κ → Market α ι κ
  | .place trader order =>
      let result := (market.traders trader).placeOrder market.engine order
      { engine := result.2.2, traders := Function.update market.traders trader result.2.1 }
  | .cancel orderId isBuyOrder =>
      { market with engine := (market.engine.cancelOrder orderId isBuyOrder).2 }
  | .matchOrders =>
      let after := market.engine.matchOrders
      { engine := after
        traders := (after.trades.drop market.engine.trades.length).foldl (settle owner)
          market.traders }

end Market

end QuantTrading
