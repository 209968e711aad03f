import QuantTrading.Engine.Representation
import Mathlib.Algebra.BigOperators.Group.Finset.Basic
import Mathlib.Algebra.Order.Ring.Int

/-! # The depth of a price level

`order_book_get_quantity_at_price` walks a tree and adds up the orders at a price in an
`int`. The walk misses nothing, but no path that admits orders limits their quantities,
so the sum of a level need not fit.
-/

namespace QuantTrading

/-- `+` on `int`; signed overflow is undefined. -/
def addInt (first second : Int) : Option Int :=
  if IsInt (first + second) then some (first + second) else none

/-- Adding up a list of values in an `int`. -/
def sumInt (start : Int) (values : List Int) : Option Int :=
  values.foldl (fun total value => total.bind fun total => addInt total value) (some start)

theorem foldl_addInt_none (values : List Int) :
    values.foldl (fun total value => total.bind fun total => addInt total value) none = none := by
  induction values with
  | nil => rfl
  | cons value rest ih => exact ih

theorem sumInt_cons (start value : Int) (rest : List Int) :
    sumInt start (value :: rest) =
      if IsInt (start + value) then sumInt (start + value) rest else none := by
  unfold sumInt
  rw [List.foldl_cons, Option.bind_some, addInt]
  split_ifs
  · rfl
  · exact foldl_addInt_none rest

/-- The accumulator holds the sum exactly when it never leaves the range on the way. -/
theorem sumInt_eq_some_iff {start : Int} (hstart : IsInt start) (values : List Int) :
    sumInt start values = some (start + values.sum) ↔
      ∀ count, IsInt (start + (values.take count).sum) := by
  induction values generalizing start with
  | nil => simpa [sumInt] using hstart
  | cons value rest ih =>
      have hsplit : (∀ count, IsInt (start + ((value :: rest).take count).sum)) ↔
          IsInt (start + value) ∧ ∀ count, IsInt (start + value + (rest.take count).sum) := by
        constructor
        · intro hall
          refine ⟨by simpa using hall 1, fun count => ?_⟩
          simpa [add_assoc] using hall (count + 1)
        · rintro ⟨_, hrest⟩ count
          cases count with
          | zero => simpa using hstart
          | succ count => simpa [add_assoc] using hrest count
      rw [hsplit, sumInt_cons, List.sum_cons, ← add_assoc]
      split_ifs with hfits
      · rw [ih hfits]
        exact (and_iff_right hfits).symm
      · simp [hfits]

variable {α ι : Type*}

namespace Engine

section Query

variable [BEq α]

/-- `count_quantity_callback`, with the total while it is defined. -/
def countQuantityCallback (orders : ι → Order α) (targetPrice : α) (order : ι)
    (totalQuantity : Option Int) : Option Int :=
  if (orders order).price == targetPrice && !(orders order).isCanceled then
    totalQuantity.bind fun total => addInt total (orders order).remainingQuantity
  else totalQuantity

/-- `order_book_get_quantity_at_price`, `none` when the total overflows. -/
def getQuantityAtPrice (state : Engine α ι) (price : α) (isBuyOrder : Bool) : Option Int :=
  if isBuyOrder then
    state.book.buyOrders.inorderTraverse (countQuantityCallback state.orders price) (some 0)
  else
    state.book.sellOrders.inorderTraverse (countQuantityCallback state.orders price) (some 0)

/-- The orders of a tree that a price level counts, in in-order sequence. -/
def priceLevel (state : Engine α ι) (price : α) (isBuyOrder : Bool) : List ι :=
  (state.book.side isBuyOrder).orders.filter fun order =>
    (state.orders order).price == price && !(state.orders order).isCanceled

theorem foldl_countQuantityCallback (orders : ι → Order α) (price : α) (list : List ι)
    (total : Option Int) :
    list.foldl (fun total order => countQuantityCallback orders price order total) total =
      ((list.filter fun order => (orders order).price == price && !(orders order).isCanceled).map
        fun order => (orders order).remainingQuantity).foldl
          (fun total value => total.bind fun total => addInt total value) total := by
  induction list generalizing total with
  | nil => rfl
  | cons order rest ih =>
      rw [List.foldl_cons, ih, countQuantityCallback]
      cases hcounts : (orders order).price == price && !(orders order).isCanceled with
      | false => rw [List.filter_cons_of_neg (by simp [hcounts]), if_neg (by simp)]
      | true => simp only [List.filter_cons, hcounts, if_true, List.map_cons, List.foldl_cons]

theorem getQuantityAtPrice_eq (state : Engine α ι) (price : α) (isBuyOrder : Bool) :
    state.getQuantityAtPrice price isBuyOrder =
      sumInt 0 ((state.priceLevel price isBuyOrder).map fun order =>
        (state.orders order).remainingQuantity) := by
  have hside : state.getQuantityAtPrice price isBuyOrder =
      (state.book.side isBuyOrder).inorderTraverse (countQuantityCallback state.orders price)
        (some 0) := by
    cases isBuyOrder <;> rfl
  rw [hside, AVLTree.inorderTraverse_eq, foldl_countQuantityCallback]
  rfl

end Query

variable [LinearOrder α] [DecidableEq ι]

/-- What the orders of a side that are not cancelled have left at a price, as a number. -/
def depthAt (state : Engine α ι) (price : α) (isBuyOrder : Bool) : Int :=
  ∑ order ∈ state.storedOrders.toFinset.filter fun order =>
    (state.orders order).isBuyOrder = isBuyOrder ∧ (state.orders order).price = price ∧
      (state.orders order).isCanceled = false, (state.orders order).remainingQuantity

/-- The walk of a tree counts every order of the level once, and no other. -/
theorem Ordered.sum_priceLevel {state : Engine α ι} (hordered : state.Ordered) (price : α)
    (isBuyOrder : Bool) :
    ((state.priceLevel price isBuyOrder).map fun order =>
      (state.orders order).remainingQuantity).sum = state.depthAt price isBuyOrder := by
  have haligned := hordered.aligned
  have hnodup : (state.priceLevel price isBuyOrder).Nodup :=
    ((hordered.side_sorted isBuyOrder).nodup_orders (haligned.side isBuyOrder)).filter _
  rw [← List.sum_toFinset _ hnodup, depthAt]
  apply Finset.sum_congr _ fun _ _ => rfl
  ext order
  simp only [priceLevel, List.mem_toFinset, List.mem_filter, Finset.mem_filter, Bool.and_eq_true,
    beq_iff_eq, Bool.not_eq_true']
  constructor
  · rintro ⟨hstored, hprice, hactive⟩
    exact ⟨mem_storedOrders_iff_side.mpr ⟨isBuyOrder, hstored⟩,
      (haligned.side isBuyOrder).side_of_mem hstored, hprice, hactive⟩
  · rintro ⟨hstored, hside, hprice, hactive⟩
    obtain ⟨side, hmem⟩ := mem_storedOrders_iff_side.mp hstored
    have hsame : side = isBuyOrder := ((haligned.side side).side_of_mem hmem).symm.trans hside
    exact ⟨hsame ▸ hmem, hprice, hactive⟩

/-- In every reachable book the query returns the depth of a price level if and only if no
partial sum of the level, in tree order, leaves the range of `int`. -/
theorem run_getQuantityAtPrice_iff (orders : ι → Order α) (ops : List (BookOp ι)) (price : α)
    (isBuyOrder : Bool) :
    let state := Transition.run Engine.perform (init orders) ops
    state.getQuantityAtPrice price isBuyOrder = some (state.depthAt price isBuyOrder) ↔
      ∀ count, IsInt (((state.priceLevel price isBuyOrder).take count).map fun order =>
        (state.orders order).remainingQuantity).sum := by
  intro state
  have hordered : state.Ordered := run_ordered orders ops
  have hsum := sumInt_eq_some_iff (by decide : IsInt 0)
    ((state.priceLevel price isBuyOrder).map fun order => (state.orders order).remainingQuantity)
  simp only [zero_add, ← List.map_take] at hsum
  rw [getQuantityAtPrice_eq, ← hordered.sum_priceLevel]
  exact hsum

/-- Two bids at one price, one of them as large as an order can be. -/
def largeBids : Nat → Order Int
  | 0 => Order.sample "B1" 100 2147483647 true 1
  | _ => Order.sample "B2" 100 1 true 2

/-- The total of two admissible bids overflows. -/
theorem depth_overflows :
    let state := Transition.run Engine.perform (init largeBids) [.add 0, .add 1]
    state.depthAt 100 true = 2147483648 ∧ state.getQuantityAtPrice 100 true = none := by
  decide

end Engine

end QuantTrading
