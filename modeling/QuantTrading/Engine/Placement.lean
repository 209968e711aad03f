import QuantTrading.Engine.Acceptance
import QuantTrading.Engine.Representation
import QuantTrading.Engine.Traders

/-! # When placing an order is all or nothing

`trader_place_order` takes the funds of a buy order before it adds the order to the
book, and the book reports success also for an order that it drops because of its key.
Funds are the price times the quantity, of which neither is checked: a negative amount
is always covered, and taking it raises the balance.
-/

namespace QuantTrading

variable {α ι : Type*}

namespace Engine

variable [LinearOrder α] [DecidableEq ι]

/-- In an ordered book an added order is stored exactly when no other order of its side has
its key. -/
theorem Ordered.mem_addOrder_iff {state : Engine α ι} (hordered : state.Ordered) (order : ι) :
    order ∈ (state.addOrder order).2.storedOrders ↔ state.KeyFree (.add order) := by
  have haligned := hordered.aligned.side (state.orders order).isBuyOrder
  have htree := state.addOrder_side order (state.orders order).isBuyOrder
  rw [if_pos rfl] at htree
  constructor
  · intro hstored other hother hne hkey
    -- an order that has the key is still in the tree, and keys are unique there
    have hafter : (state.addOrder order).2.Ordered := hordered.perform (.add order)
    obtain ⟨side, hmem⟩ := mem_storedOrders_iff_side.mp hstored
    have hside := (hafter.aligned.side side).side_of_mem hmem
    rw [addOrder_orders] at hside
    rw [← hside, htree] at hmem
    have hsorted := hafter.side_sorted (state.orders order).isBuyOrder
    have halignedAfter := hafter.aligned.side (state.orders order).isBuyOrder
    rw [htree] at hsorted halignedAfter
    rw [addOrder_orders] at halignedAfter
    apply hne
    apply (hsorted.ascending_orders halignedAfter).eq_of_key_eq
      (AVLTree.mem_orders_insert_of_mem hother) hmem
    rw [Order.key, Order.key, eq_of_beq hkey.1, hkey.2]
  · intro hfree
    apply mem_storedOrders_iff_side.mpr
    refine ⟨(state.orders order).isBuyOrder, ?_⟩
    rw [htree]
    exact haligned.mem_insert hfree

end Engine

namespace Trader

variable [Ring α] [LinearOrder α] [IsOrderedAddMonoid α]

/-- `trader_place_order` does not refuse the order: it is the trader's own, and the trader
can pay for it if it buys. -/
def Accepts (trader : Trader α) (record : Order α) : Prop :=
  trader.traderId = record.traderId ∧
    (record.isBuyOrder = true → requiredFunds record ≤ trader.balance)

/-- Placing an order stores it and takes its funds, which are not negative, or changes
nothing; the balance never goes up. -/
def AllOrNothing (trader : Trader α) (engine : Engine α ι) (order : ι) : Prop :=
  let record := engine.orders order
  let result := trader.placeOrder engine order
  (result.1 = 0 ∧ order ∈ result.2.2.storedOrders ∧
      (if record.isBuyOrder then
        result.2.1.balance = trader.balance - record.price * record.quantity ∧
          0 ≤ record.price * record.quantity
      else result.2.1.balance = trader.balance) ∨
    result = (-1, trader, engine)) ∧
  result.2.1.balance ≤ trader.balance

/-- What an accepted order does: it is added to the book, and paid for if it buys. -/
theorem placeOrder_of_accepts {trader : Trader α} {engine : Engine α ι} {order : ι}
    (haccepts : trader.Accepts (engine.orders order)) :
    let record := engine.orders order
    let result := trader.placeOrder engine order
    result.1 = 0 ∧ result.2.2 = (engine.addOrder order).2 ∧
      result.2.1.balance =
        if record.isBuyOrder then trader.balance - requiredFunds record else trader.balance := by
  intro record result
  have hcode : (engine.addOrder order).1 = 0 := by rw [Engine.addOrder_eq]
  obtain ⟨hid, hfunds⟩ := haccepts
  simp only [result, placeOrder]
  rw [if_neg (not_not.mpr hid)]
  cases hbuy : record.isBuyOrder with
  | false =>
      rw [if_neg Bool.false_ne_true]
      exact ⟨hcode, rfl, rfl⟩
  | true =>
      rw [if_pos rfl, dif_neg (not_lt.mpr (hfunds hbuy))]
      exact ⟨hcode, rfl, rfl⟩

theorem placeOrder_of_refuses {trader : Trader α} {engine : Engine α ι} {order : ι}
    (hrefuses : ¬ trader.Accepts (engine.orders order)) :
    trader.placeOrder engine order = (-1, trader, engine) := by
  rcases trader.placeOrder_cases engine order with
    ⟨hresult, _⟩ | ⟨hid, hsell, _⟩ | ⟨hid, hbuy, hfunds, _⟩
  · exact hresult
  · exact absurd ⟨hid, fun hbuy => absurd hbuy (by rw [hsell]; decide)⟩ hrefuses
  · exact absurd ⟨hid, fun _ => hfunds⟩ hrefuses

/-- In every reachable book, placing an order is all or nothing if and only if the order is
refused, or no other order of its side has its key and, if it buys, its funds are not negative. -/
theorem run_placeOrder_allOrNothing_iff [DecidableEq ι] (orders : ι → Order α)
    (ops : List (BookOp ι)) (trader : Trader α) (order : ι) :
    let engine := Transition.run Engine.perform (Engine.init orders) ops
    let record := engine.orders order
    trader.AllOrNothing engine order ↔
      (trader.Accepts record →
        engine.KeyFree (.add order) ∧
          (record.isBuyOrder = true → 0 ≤ record.price * record.quantity)) := by
  intro engine record
  have hordered : engine.Ordered := Engine.run_ordered orders ops
  by_cases haccepts : trader.Accepts record
  · obtain ⟨hcode, hengine, hbalance⟩ := placeOrder_of_accepts haccepts
    have hnotRefused : trader.placeOrder engine order ≠ (-1, trader, engine) := by
      intro hrefused
      rw [hrefused] at hcode
      cases hcode
    rw [AllOrNothing, ← hordered.mem_addOrder_iff, ← hengine, hbalance]
    cases hbuy : record.isBuyOrder with
    | false => simp [haccepts, hcode, hnotRefused]
    | true =>
        have hpaid : trader.balance - requiredFunds record ≤ trader.balance ↔
            0 ≤ record.price * record.quantity := sub_le_self_iff _
        simp only [haccepts, hcode, hnotRefused, if_true, or_false, true_and, forall_true_left]
        constructor
        · rintro ⟨⟨hstored, _, hfunds⟩, _⟩
          exact ⟨hstored, hfunds⟩
        · rintro ⟨hstored, hfunds⟩
          exact ⟨⟨hstored, rfl, hfunds⟩, hpaid.mpr hfunds⟩
  · have hrefused := placeOrder_of_refuses haccepts
    rw [AllOrNothing, hrefused]
    simp [haccepts]

/-! ## A buyer and an order of a negative quantity -/

/-- A trader without money. -/
def penniless : Trader Int where
  traderId := "T".toList
  name := "T".toList
  balance := 0
  balance_nonneg := le_rfl

/-- A sell order, and a buy order of a negative quantity. -/
def signedOrders : Nat → Order Int
  | 0 => Order.sample "S" 100 1 false 1
  | _ => Order.sample "B" 100 (-5) true 2

theorem run_placeOrder_allOrNothing_sell :
    penniless.AllOrNothing (Transition.run Engine.perform (Engine.init signedOrders) []) 0 :=
  (run_placeOrder_allOrNothing_iff signedOrders [] penniless 0).mpr fun _ =>
    ⟨by decide, by decide⟩

/-- Placing a buy order of a negative quantity pays the trader. -/
theorem negative_order_raises_balance :
    (penniless.placeOrder (Engine.init signedOrders) 1).1 = 0 ∧
      (penniless.placeOrder (Engine.init signedOrders) 1).2.1.balance = 500 ∧
      ¬ penniless.AllOrNothing (Transition.run Engine.perform (Engine.init signedOrders) []) 1 := by
  have hbalance : (penniless.placeOrder (Engine.init signedOrders) 1).2.1.balance = 500 := by
    decide
  refine ⟨by decide, hbalance, fun hall => ?_⟩
  have hle := hall.2
  rw [Transition.run_nil, hbalance] at hle
  exact absurd hle (by decide)

end Trader

end QuantTrading
