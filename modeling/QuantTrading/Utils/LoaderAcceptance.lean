import QuantTrading.Engine.Acceptance
import QuantTrading.Utils.OrderLoader

/-! # Loaded orders stay in the book

`load_orders_from_file` counts the calls of `order_book_add_order` that return
success. The count is the number of stored orders when the orders of the file
have different keys within each side.
-/

namespace QuantTrading

/-- Two orders of one side share their key. -/
def Order.Collides {α : Type*} [BEq α] (first second : Order α) : Prop :=
  first.isBuyOrder = second.isBuyOrder ∧ first.SameKey second

instance {α : Type*} [BEq α] (first second : Order α) : Decidable (first.Collides second) :=
  inferInstanceAs (Decidable (_ ∧ _))

theorem AVLTree.inorderTraverse_count {α ι : Type*} (tree : AVLTree α ι) :
    tree.inorderTraverse (fun _ (count : Int) => count + 1) 0 = tree.orders.length := by
  have hcount : ∀ (orders : List ι) (start : Int),
      orders.foldl (fun count _ => count + 1) start = start + orders.length := by
    intro orders
    induction orders with
    | nil => simp
    | cons order rest ih =>
        intro start
        rw [List.foldl_cons, ih, List.length_cons]
        omega
  rw [inorderTraverse_eq, hcount, zero_add]

namespace OrderLoader

variable {α : Type} [LT α] [DecidableLT α] [BEq α]

/-- The loop adds the orders of the file one after the other. -/
theorem loadLines_eq [LE α] [DecidableLE α] [Zero α] (readers : NumeralReaders α)
    (clock : Nat → Int) (fileType : FileType) (lineNumber : Nat) (lines : List CString)
    (loading : Loading α) :
    loadLines readers clock fileType lineNumber lines loading =
      Transition.run Loading.add loading
        (fileOrders readers clock fileType lineNumber lines) := by
  induction lines generalizing lineNumber loading with
  | nil => rfl
  | cons buffer rest ih =>
      rw [loadLines, fileOrders, Transition.run_append, ih]
      cases lineOrder readers clock fileType lineNumber buffer with
      | none => rfl
      | some order => rfl

/-- What is known of a book into which the `loaded` orders have been put. -/
structure Loaded (loaded : List (Order α)) (loading : Loading α) : Prop where
  aligned : loading.engine.Aligned
  allocated : ∀ isBuyOrder, ∀ order ∈ (loading.engine.book.side isBuyOrder).orders,
    order < loading.nextAddress
  stored : ∀ isBuyOrder, ∀ order ∈ (loading.engine.book.side isBuyOrder).orders,
    loading.engine.orders order ∈ loaded
  counted : loading.ordersLoaded = (loading.engine.book.buyOrders.orders.length : Int) +
    loading.engine.book.sellOrders.orders.length

omit [LT α] [DecidableLT α] [BEq α] in
/-- Putting an order into memory that no stored order occupies. -/
theorem Loaded.allocate {loaded : List (Order α)} {loading : Loading α}
    (hloaded : Loaded loaded loading) (order : Order α) :
    ∀ isBuyOrder, ∀ other ∈ (loading.engine.book.side isBuyOrder).orders,
      Function.update loading.engine.orders loading.nextAddress order other =
        loading.engine.orders other := by
  intro isBuyOrder other hother
  exact Function.update_of_ne (hloaded.allocated isBuyOrder other hother).ne _ _

theorem Loaded.add [PartialEquivBEq α] {loaded : List (Order α)} {loading : Loading α}
    (hloaded : Loaded loaded loading) {order : Order α}
    (hfree : ∀ other ∈ loaded, ¬ other.Collides order) :
    Loaded (loaded ++ [order]) (loading.add order) := by
  have hmemory := hloaded.allocate order
  let engine : Engine α Nat := { loading.engine with
    orders := Function.update loading.engine.orders loading.nextAddress order }
  have hnew : engine.orders loading.nextAddress = order := Function.update_self ..
  have haligned : engine.Aligned :=
    ⟨hloaded.aligned.buy.congr (hmemory true), hloaded.aligned.sell.congr (hmemory false)⟩
  have hengine : (loading.add order).engine = (engine.addOrder loading.nextAddress).2 := rfl
  have hcases : ∀ isBuyOrder,
      ∀ other ∈ ((engine.addOrder loading.nextAddress).2.book.side isBuyOrder).orders,
        other = loading.nextAddress ∨ other ∈ (loading.engine.book.side isBuyOrder).orders := by
    intro isBuyOrder other hother
    rw [Engine.addOrder_side] at hother
    split_ifs at hother
    · exact AVLTree.eq_or_mem_orders_of_insert hother
    · exact Or.inr hother
  refine ⟨haligned.perform (.add loading.nextAddress), ?_, ?_, ?_⟩
  · intro isBuyOrder other hother
    rcases hcases isBuyOrder other hother with rfl | hold
    · exact Nat.lt_succ_self _
    · exact Nat.lt_succ_of_lt (hloaded.allocated isBuyOrder other hold)
  · intro isBuyOrder other hother
    rw [hengine, Engine.addOrder_orders]
    rcases hcases isBuyOrder other hother with rfl | hold
    · simp [hnew]
    · apply List.mem_append_left _
      rw [show engine.orders other = loading.engine.orders other from hmemory isBuyOrder other hold]
      exact hloaded.stored isBuyOrder other hold
  · have hkeyFree : ∀ other ∈ (engine.book.side order.isBuyOrder).orders,
        ¬ order.SameKey (engine.orders other) := by
      intro other hother hsame
      rw [show engine.orders other = loading.engine.orders other from
        hmemory order.isBuyOrder other hother] at hsame
      refine hfree _ (hloaded.stored order.isBuyOrder other hother) ⟨?_, hsame.symm⟩
      exact (hloaded.aligned.side order.isBuyOrder).side_of_mem hother
    have hlength := haligned.length_addOrder loading.nextAddress (by rw [hnew]; exact hkeyFree)
    have hcounted := hloaded.counted
    have hloadedCount : (loading.add order).ordersLoaded = loading.ordersLoaded + 1 := by
      simp [Loading.add, Engine.addOrder_eq]
    rw [show engine.book = loading.engine.book from rfl] at hlength
    rw [hloadedCount, hengine, hcounted]
    omega

theorem Loaded.run [PartialEquivBEq α] {loaded orders : List (Order α)} {loading : Loading α}
    (hloaded : Loaded loaded loading)
    (hapart : (loaded ++ orders).Pairwise fun first second => ¬ first.Collides second) :
    Loaded (loaded ++ orders) (Transition.run Loading.add loading orders) := by
  induction orders generalizing loaded loading with
  | nil => simpa using hloaded
  | cons order rest ih =>
      have hfree : ∀ other ∈ loaded, ¬ other.Collides order := fun other hother =>
        (List.pairwise_append.mp hapart).2.2 other hother order List.mem_cons_self
      rw [List.append_cons] at hapart ⊢
      exact ih (hloaded.add hfree) hapart

/-- Loading a file into an empty book stores as many orders as it reports, when
no two orders of the file collide. -/
theorem loadOrdersFromFile_counts [PartialEquivBEq α] [LE α] [DecidableLE α] [Zero α]
    (readers : NumeralReaders α) (clock : Nat → Int) {filename : CString}
    {contents : Option CString} {engine : Engine α Nat} (nextAddress : Nat)
    {lineNumber : Nat} {lines : List CString} (hempty : engine.book = OrderBook.empty)
    (hlines : processedLines (determineFileType filename) contents = some (lineNumber, lines))
    (hapart : (fileOrders readers clock (determineFileType filename) lineNumber
      lines).Pairwise fun first second => ¬ first.Collides second) :
    let result := loadOrdersFromFile readers clock filename contents engine nextAddress
    result.1 = result.2.book.buyOrders.inorderTraverse (fun _ count => count + 1) 0 +
      result.2.book.sellOrders.inorderTraverse (fun _ count => count + 1) 0 := by
  have hstart : Loaded [] (⟨engine, nextAddress, 0⟩ : Loading α) := by
    refine ⟨⟨?_, ?_⟩, ?_, ?_, ?_⟩
    · simp [AVLTree.Aligned, hempty, OrderBook.empty]
    · simp [AVLTree.Aligned, hempty, OrderBook.empty]
    · rintro (_ | _) <;> simp [hempty, OrderBook.empty, OrderBook.side, AVLTree.orders]
    · rintro (_ | _) <;> simp [hempty, OrderBook.empty, OrderBook.side, AVLTree.orders]
    · simp [hempty, OrderBook.empty, AVLTree.orders]
  have hcounted := (hstart.run hapart).counted
  simp only [loadOrdersFromFile, hlines, loadLines_eq, AVLTree.inorderTraverse_count]
  exact hcounted

end OrderLoader

/-- No accepted order is lost as long as every added order has a key of its own:
in a run whose additions all find their key free, every order that was accepted
and still has something to trade is in the tree of its side; and a file whose
orders do not collide leaves as many orders in an empty book as the loader
reports. -/
theorem accepted_orders_kept {α : Type} {ι : Type*} [LT α] [DecidableLT α] [BEq α]
    [PartialEquivBEq α] [LE α] [DecidableLE α] [Zero α] [DecidableEq ι] :
    (∀ (orders : ι → Order α) (before after : List (BookOp ι)) (order : ι),
      Transition.Along Engine.perform Engine.KeyFree (Engine.init orders)
        (before ++ .add order :: after) →
      ((Transition.run Engine.perform (Engine.init orders) before).addOrder order).1 = 0 →
      let state := Transition.run Engine.perform (Engine.init orders)
        (before ++ .add order :: after)
      0 < (state.orders order).remainingQuantity →
        order ∈ (state.book.side (state.orders order).isBuyOrder).orders) ∧
    (∀ (readers : NumeralReaders α) (clock : Nat → Int) (filename : CString)
        (contents : Option CString) (engine : Engine α Nat) (nextAddress lineNumber : Nat)
        (lines : List CString), engine.book = OrderBook.empty →
      OrderLoader.processedLines (OrderLoader.determineFileType filename) contents =
        some (lineNumber, lines) →
      ((OrderLoader.fileOrders readers clock (OrderLoader.determineFileType filename) lineNumber
        lines).Pairwise fun first second => ¬ first.Collides second) →
      let result := OrderLoader.loadOrdersFromFile readers clock filename contents engine
        nextAddress
      result.1 = result.2.book.buyOrders.inorderTraverse (fun _ count => count + 1) 0 +
        result.2.book.sellOrders.inorderTraverse (fun _ count => count + 1) 0) := by
  refine ⟨?_, ?_⟩
  · intro orders before after order halong _ state hpos
    have hkeeps := (Engine.init_keeps orders).run halong
    exact hkeeps.stored order (Or.inl (by simp)) hpos
  · intro readers clock filename contents engine nextAddress lineNumber lines hempty hlines hapart
    exact OrderLoader.loadOrdersFromFile_counts readers clock nextAddress hempty hlines hapart

/-- Readers of plain decimal numerals, for whole prices. -/
def decimalReaders : NumeralReaders Int where
  atof := fun text => text.foldl (fun value c => 10 * value + (c.toNat - '0'.toNat : Nat)) 0
  atoi := fun text => text.foldl (fun value c => 10 * value + (c.toNat - '0'.toNat : Nat)) 0

/-- Three orders, the first two of them bids with one price and one timestamp. -/
def threeOrders : Nat → Order Int
  | 0 => Order.sample "A" 10 5 true 1
  | 1 => Order.sample "B" 10 5 true 1
  | _ => Order.sample "C" 10 3 false 2

/-- Load a text file of the given contents into an empty book, within one second. -/
def loadText (contents : String) : Int × Engine Int Nat :=
  OrderLoader.loadOrdersFromFile decimalReaders (fun _ => 7) "f.txt".toList
    (some contents.toList) (Engine.init threeOrders) 3

/-- The number of orders that traversals of both trees visit. -/
def visitedOrders (engine : Engine Int Nat) : Int :=
  engine.book.buyOrders.inorderTraverse (fun _ count => count + 1) 0 +
    engine.book.sellOrders.inorderTraverse (fun _ count => count + 1) 0

/-- A bid partly filled by an offer stays in the book, and so do the two orders of
a file with different keys. -/
theorem accepted_orders_kept_partial_fill :
    (0 ∈ ((Transition.run Engine.perform (Engine.init threeOrders)
      [.add 0, .add 2, .matchOrders]).book.side true).orders) ∧
    (loadText "A T AAPL BUY 10 5\nB T AAPL BUY 9 5\n").1 =
      visitedOrders (loadText "A T AAPL BUY 10 5\nB T AAPL BUY 9 5\n").2 :=
  ⟨(accepted_orders_kept (α := Int) (ι := Nat)).1 threeOrders [] [.add 2, .matchOrders] 0
      (by decide) (by decide) (by decide),
    (accepted_orders_kept (α := Int) (ι := Nat)).2 decimalReaders (fun _ => 7) _ _ _ 3 1
      ["A T AAPL BUY 10 5\n".toList, "B T AAPL BUY 9 5\n".toList] rfl
      (by decide +kernel) (by decide +kernel)⟩

/-- A second bid with the price and the timestamp of the first is accepted and
lost, and a file with two such bids is reported as two orders but stores one. -/
theorem equal_keys_lose_an_order :
    (let before := Transition.run Engine.perform (Engine.init threeOrders) [.add 0]
    let state := Transition.run Engine.perform (Engine.init threeOrders) [.add 0, .add 1]
    (before.addOrder 1).1 = 0 ∧ 0 < (state.orders 1).remainingQuantity ∧
      1 ∉ (state.book.side (state.orders 1).isBuyOrder).orders) ∧
    (loadText "A T AAPL BUY 10 5\nB T AAPL BUY 10 5\n").1 ≠
      visitedOrders (loadText "A T AAPL BUY 10 5\nB T AAPL BUY 10 5\n").2 := by
  refine ⟨by decide, ?_⟩
  decide +kernel

end QuantTrading
