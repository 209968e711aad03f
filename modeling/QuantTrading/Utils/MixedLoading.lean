import QuantTrading.Engine.MixedBook
import QuantTrading.Utils.LoaderAcceptance

/-! # Loading several symbols into one book

`load_orders_from_file` puts the orders of all symbols of a file into the book it
is given. Every order it reads is live, so the mixed book trades each symbol as a
book of its own would exactly when no other symbol blocks it.
-/

namespace QuantTrading

variable {α : Type}

theorem Order.create_live {orderId traderId symbol : CString} {price : α} {quantity now : Int}
    {isBuyOrder : Bool} {order : Order α} (hpos : 0 < quantity)
    (hcreate : Order.create orderId traderId symbol price quantity isBuyOrder now = some order) :
    order.Live := by
  unfold Order.create at hcreate
  split_ifs at hcreate
  obtain rfl := Option.some.inj hcreate
  exact ⟨rfl, hpos⟩

variable [LinearOrder α]

/-- Orders that do not collide have distinct keys within each side. -/
theorem distinctKeys_of_pairwise {ι : Type*} {orders : ι → Order α} {list : List ι}
    (hapart : (list.map orders).Pairwise fun first second => ¬ first.Collides second) :
    DistinctKeys orders list := by
  have hsymm : Std.Symm fun first second : ι => ¬ (orders first).Collides (orders second) :=
    ⟨fun first second hfree ⟨hside, hkey⟩ => hfree ⟨hside.symm, hkey.symm⟩⟩
  intro first hfirst second hsecond hne hside hkey
  refine (List.pairwise_map.mp hapart).forall hfirst hsecond hne ⟨hside, ?_⟩
  obtain ⟨hprice, htimestamp⟩ := Prod.mk.inj (toLex.injective hkey)
  exact ⟨beq_iff_eq.mpr hprice, htimestamp⟩

namespace Engine

/-- Memory that the book does not use may change. -/
theorem Filled.congr {ι : Type*} {orders orders' : ι → Order α} {list : List ι}
    {state : Engine α ι} (hfilled : Filled orders list state)
    (hsame : ∀ order ∈ list, orders' order = orders order) :
    Filled orders' list { state with orders := orders' } := by
  have hstored : ∀ isBuyOrder, ∀ order ∈ (state.book.side isBuyOrder).orders,
      orders' order = state.orders order := by
    intro isBuyOrder order horder
    rw [hfilled.memory]
    exact hsame order ((hfilled.stored isBuyOrder order).mp horder).1
  refine ⟨⟨⟨?_, ?_⟩, hfilled.ordered.buySorted, hfilled.ordered.sellSorted⟩, rfl,
    hfilled.untraded, ?_⟩
  · exact hfilled.ordered.aligned.buy.congr (hstored true)
  · exact hfilled.ordered.aligned.sell.congr (hstored false)
  · intro isBuyOrder order
    rw [hfilled.stored]
    apply and_congr_right
    intro horder
    rw [hsame order horder]

end Engine

namespace OrderLoader

section Live

variable [Zero α]

/-- `parse_order_line` refuses a quantity that is not positive. -/
theorem parseOrderLine_live {readers : NumeralReaders α} {fileType : FileType} {now : Int}
    {line : CString} {order : Order α}
    (hparse : parseOrderLine readers fileType now line = some order) : order.Live := by
  unfold parseOrderLine at hparse
  simp only [Option.bind_eq_bind, Option.bind_eq_some_iff] at hparse
  obtain ⟨orderId, _, traderId, _, symbol, _, side, _, price, _, hparse⟩ := hparse
  split_ifs at hparse with hprice
  · simp at hparse
  · obtain ⟨quantity, _, hparse⟩ := Option.bind_eq_some_iff.mp hparse
    split_ifs at hparse with hquantity
    · simp at hparse
    · exact Order.create_live (not_le.mp hquantity) hparse

/-- Every order of a file is live. -/
theorem fileOrders_live {readers : NumeralReaders α} {clock : Nat → Int} {fileType : FileType}
    {lineNumber : Nat} {lines : List CString} {order : Order α}
    (horder : order ∈ fileOrders readers clock fileType lineNumber lines) : order.Live := by
  induction lines generalizing lineNumber with
  | nil => simp [fileOrders] at horder
  | cons buffer rest ih =>
      rw [fileOrders, List.mem_append, Option.mem_toList] at horder
      rcases horder with hline | hrest
      · unfold lineOrder at hline
        dsimp only at hline
        split at hline
        · simp at hline
        · split_ifs at hline
          exact parseOrderLine_live hline
      · exact ih hrest

end Live

/-- The addresses from `first` on hold the loaded orders, and they are the book. -/
structure Holds (first : Nat) (loaded : List (Order α)) (loading : Loading α) : Prop where
  nextAddress : loading.nextAddress = first + loaded.length
  memory : (List.range' first loaded.length).map loading.engine.orders = loaded
  filled : Engine.Filled loading.engine.orders (List.range' first loaded.length) loading.engine

theorem Holds.order_mem {first : Nat} {loaded : List (Order α)} {loading : Loading α}
    (hholds : Holds first loaded loading) {address : Nat}
    (haddress : address ∈ List.range' first loaded.length) :
    loading.engine.orders address ∈ loaded := by
  have hread : loading.engine.orders address ∈
      (List.range' first loaded.length).map loading.engine.orders :=
    List.mem_map.mpr ⟨address, haddress, rfl⟩
  rwa [hholds.memory] at hread

/-- An order whose key is free is loaded at the next address. -/
theorem Holds.add {first : Nat} {loaded : List (Order α)} {loading : Loading α}
    (hholds : Holds first loaded loading) {order : Order α}
    (hapart : (loaded ++ [order]).Pairwise fun first second => ¬ first.Collides second) :
    Holds first (loaded ++ [order]) (loading.add order) := by
  let orders := Function.update loading.engine.orders loading.nextAddress order
  have hsame : ∀ address ∈ List.range' first loaded.length,
      orders address = loading.engine.orders address := by
    intro address haddress
    apply Function.update_of_ne
    have hlt := (List.mem_range'_1.mp haddress).2
    rw [hholds.nextAddress]
    omega
  have hnew : orders loading.nextAddress = order := Function.update_self ..
  have hrange : List.range' first (loaded ++ [order]).length =
      List.range' first loaded.length ++ [loading.nextAddress] := by
    rw [List.length_append, List.length_singleton, List.range'_1_concat, hholds.nextAddress]
  have horders : (loading.add order).engine.orders = orders := Engine.addOrder_orders ..
  have hmemory : (List.range' first (loaded ++ [order]).length).map orders = loaded ++ [order] := by
    rw [hrange, List.map_append, List.map_congr_left hsame, hholds.memory, List.map_singleton, hnew]
  refine ⟨?_, ?_, ?_⟩
  · simp [Loading.add, hholds.nextAddress, Nat.add_assoc]
  · rw [horders, hmemory]
  · rw [horders, hrange]
    apply (hholds.filled.congr hsame).addOrder
    rw [← hrange]
    exact distinctKeys_of_pairwise (hmemory.symm ▸ hapart)

/-- Loading the orders of a file one after the other. -/
theorem Holds.run {first : Nat} {loaded orders : List (Order α)} {loading : Loading α}
    (hholds : Holds first loaded loading)
    (hapart : (loaded ++ orders).Pairwise fun first second => ¬ first.Collides second) :
    Holds first (loaded ++ orders) (Transition.run Loading.add loading orders) := by
  induction orders generalizing loaded loading with
  | nil => simpa using hholds
  | cons order rest ih =>
      rw [List.append_cons] at hapart ⊢
      exact ih (hholds.add (List.pairwise_append.mp hapart).1) hapart

/-- Loading a file whose orders do not collide into a fresh book. -/
theorem loadOrdersFromFile_filled [Zero α] (readers : NumeralReaders α) (clock : Nat → Int)
    {filename : CString} {contents : Option CString} (memory : Nat → Order α) (first : Nat)
    {lineNumber : Nat} {lines : List CString}
    (hlines : processedLines (determineFileType filename) contents = some (lineNumber, lines))
    (hapart : (fileOrders readers clock (determineFileType filename) lineNumber
      lines).Pairwise fun first second => ¬ first.Collides second) :
    let mixed := (loadOrdersFromFile readers clock filename contents (Engine.init memory) first).2
    let loaded := List.range' first (fileOrders readers clock (determineFileType filename)
      lineNumber lines).length
    Engine.Filled mixed.orders loaded mixed ∧ ∀ order ∈ loaded, (mixed.orders order).Live := by
  intro mixed loaded
  have hstart : Holds first [] (⟨Engine.init memory, first, 0⟩ : Loading α) := by
    refine ⟨rfl, rfl, Engine.init_ordered memory, rfl, rfl, ?_⟩
    rintro (_ | _) order <;>
      simp [Engine.init, OrderBook.empty, OrderBook.side, AVLTree.orders]
  have hholds := hstart.run hapart
  have hmixed : mixed = (Transition.run Loading.add ⟨Engine.init memory, first, 0⟩
      (fileOrders readers clock (determineFileType filename) lineNumber lines)).engine := by
    simp only [mixed, loadOrdersFromFile, hlines, loadLines_eq]
  rw [hmixed]
  refine ⟨hholds.filled, fun order horder => ?_⟩
  exact fileOrders_live (hholds.order_mem horder)

/-- Symbols do not interfere as long as they do not block each other: on the book
into which a file with distinct keys per side has been loaded, the trades of a
symbol are those of a book that holds only the orders of the symbol, if and only
if no bid and offer of different symbols come to the top together with orders of
the symbol that cross at or behind them. -/
theorem loaded_symbol_trades_eq_iff [Zero α] (readers : NumeralReaders α) (clock : Nat → Int)
    (filename : CString) (contents : Option CString) (memory : Nat → Order α)
    (first lineNumber : Nat) (lines : List CString)
    (hlines : processedLines (determineFileType filename) contents = some (lineNumber, lines))
    (hapart : (fileOrders readers clock (determineFileType filename) lineNumber
      lines).Pairwise fun first second => ¬ first.Collides second) (symbol : CString) :
    let mixed := (loadOrdersFromFile readers clock filename contents (Engine.init memory) first).2
    let loaded := List.range' first (fileOrders readers clock (determineFileType filename)
      lineNumber lines).length
    let own := Transition.run Engine.perform (Engine.init mixed.orders)
      ((loaded.filter fun order => (mixed.orders order).symbol = symbol).map .add)
    (mixed.matchOrders.trades.filter fun event => event.symbol = symbol) =
      own.matchOrders.trades ↔ ¬ mixed.Blocked symbol := by
  intro mixed loaded own
  obtain ⟨hfilled, hlive⟩ := loadOrdersFromFile_filled readers clock memory first hlines hapart
  have hown := Engine.run_add_filled mixed.orders
    (loaded.filter fun order => (mixed.orders order).symbol = symbol)
    (hfilled.distinctKeys.subset (List.filter_subset_self _))
  exact hfilled.symbol_trades_eq_iff hown hlive

end OrderLoader

/-- A crossing bid and offer in one symbol and a lower bid in another. -/
def unblockedFile : String :=
  "A T AAPL BUY 11 5\nB T MSFT BUY 9 5\nS T AAPL SELL 10 5\n"

/-- The symbol that crosses is not blocked. -/
theorem loaded_symbol_trades_unblockedFile :
    ¬ (loadText unblockedFile).2.Blocked "AAPL".toList :=
  (OrderLoader.loaded_symbol_trades_eq_iff decimalReaders (fun _ => 7) "f.txt".toList
    (some unblockedFile.toList) threeOrders 3 1
    ["A T AAPL BUY 11 5\n".toList, "B T MSFT BUY 9 5\n".toList, "S T AAPL SELL 10 5\n".toList]
    (by decide +kernel) (by decide +kernel) "AAPL".toList).mp (by decide +kernel)

/-- The bid and the offer of one symbol behind a higher bid in another. -/
def blockedFile : String :=
  "A T MSFT BUY 300 5\nB T AAPL BUY 11 5\nS T AAPL SELL 10 5\n"

/-- The bid in the other symbol keeps the two from trading, though they trade on
their own. -/
theorem other_symbol_blocks :
    let mixed := (loadText blockedFile).2
    let own := Transition.run Engine.perform (Engine.init mixed.orders)
      ((([3, 4, 5] : List Nat).filter fun order =>
        (mixed.orders order).symbol = "AAPL".toList).map .add)
    DistinctKeys mixed.orders [3, 4, 5] ∧
      (mixed.matchOrders.trades.filter fun event => event.symbol = "AAPL".toList) ≠
        own.matchOrders.trades := by
  decide +kernel

end QuantTrading
