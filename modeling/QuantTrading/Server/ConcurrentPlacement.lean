import QuantTrading.Server.OrderLifecycle

/-! # Placing orders from several workers

`handle_place_order` looks for the book of a symbol, appends a new one when there
is none, and then adds and matches the order. It holds `books_lock` for reading
only, so the steps of several workers interleave: between the look-up of one
worker and its append another one may register the same symbol. Neither the append
nor the addition checks for the place it takes: the one goes on past the end of the
arrays, and the other drops an order whose key is taken.
-/

namespace QuantTrading

variable {α : Type*}

/-- How far a worker is with its place message: it holds none, its look-up found no
book, or it holds the book at an index. -/
inductive Placement (α : Type*) where
  | idle : Placement α
  | missed (order : OrderMessage α) : Placement α
  | holds (order : OrderMessage α) (index : Nat) : Placement α

/-- An order that was placed in the book at `index`: where it is in memory, and what
`order_create` wrote there. -/
structure PlacedOrder (α : Type*) where
  address : Nat
  record : Order α
  index : Nat
deriving DecidableEq, Repr

/-- The handlers with the workers that share them, the indices written by appends
and the orders placed so far. -/
structure PlacingServer (α : Type*) where
  handlers : ServerHandlers α
  workers : Nat → Placement α
  filled : List Nat
  placed : List (PlacedOrder α)

/-- A step of one worker. -/
inductive PlacementStep (α : Type*) where
  | lookUp (worker : Nat) (order : OrderMessage α) : PlacementStep α
  | createBook (worker : Nat) : PlacementStep α
  | addAndMatch (worker : Nat) (created : Int) : PlacementStep α

namespace ServerHandlers

/-- When every symbol is registered once, the look-up finds each book. -/
theorem findBook_of_nodup {handlers : ServerHandlers α} (hnodup : handlers.symbols.Nodup)
    {index : Nat} {registered : RegisteredBook α}
    (hindex : handlers.books[index]? = some registered) :
    handlers.findBook registered.symbol = some (index, registered) := by
  obtain ⟨hlt, hvalue⟩ := List.getElem?_eq_some_iff.mp hindex
  have hposition : handlers.books.findIdx?
      (fun entry => entry.symbol = registered.symbol) = some index := by
    refine List.findIdx?_eq_some_iff_getElem.mpr ⟨hlt, by simp [hvalue], fun other hother => ?_⟩
    have hne := List.nodup_iff_getElem?_ne_getElem?.mp hnodup other index hother
      (by simpa [symbols] using hlt)
    simpa [symbols, List.getElem?_eq_getElem hlt,
      List.getElem?_eq_getElem (hother.trans hlt), hvalue] using hne
  rw [findBook, hposition, Option.bind_some, hindex, Option.map_some]

/-- A placed order is in a book: it is stored in one of its trees, or it is no longer
because its trades have filled it. At its address is still the order that was created. -/
structure InBook (handlers : ServerHandlers α) (registered : RegisteredBook α)
    (placed : PlacedOrder α) : Prop where
  terms : (handlers.orders placed.address).terms = placed.record.terms
  present : placed.address ∈ registered.storedOrders ∨
    FilledBy handlers.trades placed.address placed.record

section Ordered

variable [LinearOrder α]

/-- An order whose last part has been traded is filled. -/
theorem filledBy_of_left {handlers : ServerHandlers α} {events : List (LifeEvent α)}
    (htracked : LifeHistory.Tracked handlers events) {registered : RegisteredBook α}
    {newOrder record : Order α} {added after : Engine α Nat}
    (hplaced : handlers.Placed registered newOrder added after) (hfresh : newOrder.Fresh)
    {order : Nat} (hlt : order < handlers.nextAddress + 1)
    (hterms : (after.orders order).terms = record.terms)
    (hleft : (after.orders order).remainingQuantity = 0 ∧
      ∃ event ∈ after.trades, event.Names order) : FilledBy after.trades order record := by
  have hbalance := htracked.placed_balance hplaced hfresh hlt
  have hquantity : (after.orders order).quantity = record.quantity :=
    Order.quantity_eq_of_terms hterms
  refine ⟨hleft.2, ?_⟩
  rw [← hquantity, ← hbalance, hleft.1, Int.add_zero]

/-- Placing an order leaves those that were placed before in their books. -/
theorem InBook.place {handlers : ServerHandlers α} {events : List (LifeEvent α)}
    (htracked : LifeHistory.Tracked handlers events) {index position : Nat}
    {registered entry : RegisteredBook α} {newOrder : Order α} {added after : Engine α Nat}
    (hindex : handlers.books[index]? = some registered)
    (hposition : handlers.books[position]? = some entry)
    (hplaced : handlers.Placed registered newOrder added after) (hfresh : newOrder.Fresh)
    {placed : PlacedOrder α} (hlt : placed.address < handlers.nextAddress)
    (hin : handlers.InBook entry placed) :
    ∃ entry', (handlers.update index registered after).books[position]? = some entry' ∧
      entry'.symbol = entry.symbol ∧
      (handlers.update index registered after).InBook entry' placed := by
  have hterms : (after.orders placed.address).terms = placed.record.terms := by
    rw [hplaced.matched.sameTerms, hplaced.others _ hlt.ne]
    exact hin.terms
  have hsucc := hlt.trans (Nat.lt_succ_self _)
  -- a filled order is in no tree, so nothing of it is traded again
  have hfilled : FilledBy handlers.trades placed.address placed.record →
      FilledBy after.trades placed.address placed.record := by
    rintro ⟨⟨event, hevent, hnames⟩, htraded⟩
    have hquantity : (handlers.orders placed.address).quantity = placed.record.quantity :=
      Order.quantity_eq_of_terms hin.terms
    have houtside : placed.address ∉ added.storedOrders := by
      intro hadded
      rcases hplaced.stored _ hadded with heq | hstored
      · exact hlt.ne heq
      · exact htracked.not_filled hindex hstored
          ⟨⟨event, hevent, hnames⟩, htraded.trans hquantity.symm⟩
    have hbefore := htracked.balance _ hlt
    apply filledBy_of_left htracked hplaced hfresh hsucc hterms
    obtain ⟨more, hmore, _⟩ := hplaced.matched.trades
    refine ⟨?_, event, ?_, hnames⟩
    · rw [hplaced.matched.others _ houtside, hplaced.others _ hlt.ne]
      omega
    · rw [hmore, hplaced.trades_eq]
      exact List.mem_append_left _ hevent
  by_cases hsame : position = index
  · subst hsame
    obtain rfl : registered = entry := Option.some.inj (hindex.symm.trans hposition)
    refine ⟨{ registered with book := after.book }, ?_, rfl, hterms, ?_⟩
    · exact List.getElem?_set_self (List.getElem?_eq_some_iff.mp hindex).1
    · rcases hin.present with hstored | hpast
      · exact (hplaced.matched.left _ (hplaced.kept _ hstored)).imp_right fun hleft =>
          filledBy_of_left htracked hplaced hfresh hsucc hterms hleft
      · exact Or.inr (hfilled hpast)
  · refine ⟨entry, ?_, rfl, hterms, hin.present.imp_right hfilled⟩
    rw [ServerHandlers.update, List.getElem?_set_ne (Ne.symm hsame)]
    exact hposition

/-- An order whose key is free is in the book in which it was placed. -/
theorem InBook.arrived {handlers : ServerHandlers α} {events : List (LifeEvent α)}
    (htracked : LifeHistory.Tracked handlers events) {registered : RegisteredBook α}
    {newOrder : Order α} {added after : Engine α Nat}
    (hplaced : handlers.Placed registered newOrder added after) (hfresh : newOrder.Fresh)
    (hfree : handlers.FreeKey registered newOrder) (index : Nat) :
    (handlers.update index registered after).InBook { registered with book := after.book }
      { address := handlers.nextAddress, record := newOrder, index := index } := by
  have hterms : (after.orders handlers.nextAddress).terms = newOrder.terms := by
    rw [hplaced.matched.sameTerms, hplaced.created]
  refine ⟨hterms, ?_⟩
  exact (hplaced.matched.left _ (hplaced.arrives_iff.mpr hfree)).imp_right fun hleft =>
    filledBy_of_left htracked hplaced hfresh (Nat.lt_succ_self _) hterms hleft

/-- An order whose key is taken is in no tree, and no trade names it. -/
theorem InBook.free {handlers : ServerHandlers α} {events : List (LifeEvent α)}
    (htracked : LifeHistory.Tracked handlers events) {registered : RegisteredBook α}
    {newOrder : Order α} {added after : Engine α Nat} {index : Nat}
    (hplaced : handlers.Placed registered newOrder added after)
    (hin : (handlers.update index registered after).InBook { registered with book := after.book }
      { address := handlers.nextAddress, record := newOrder, index := index }) :
    handlers.FreeKey registered newOrder := by
  apply hplaced.arrives_iff.mp
  rcases hin.present with hstored | ⟨⟨event, hevent, hnames⟩, _⟩
  · exact hplaced.matched.stored _ hstored
  · obtain ⟨more, hmore, hsound⟩ := hplaced.matched.trades
    have hmem : event ∈ handlers.trades ++ more := by
      rw [← hplaced.trades_eq, ← hmore]
      exact hevent
    rcases List.mem_append.mp hmem with hearlier | hlater
    · exact absurd ((htracked.sound event hearlier).2 _ hnames) (lt_irrefl _)
    · exact ((hsound event hlater).2 _ hnames).1

end Ordered

end ServerHandlers

namespace PlacingServer

def create (orders : Nat → Order α) (broadcaster : Option TradeBroadcaster) : PlacingServer α where
  handlers := ServerHandlers.create orders broadcaster
  workers := fun _ => .idle
  filled := []
  placed := []

/-- What the property asks of a state: no symbol has two books, every entry is one of
the arrays' and was written once, and every placed order and every stored order is in
the book that a look-up of its symbol returns. -/
structure OneBookPerSymbol (server : PlacingServer α) : Prop where
  symbols_nodup : server.handlers.symbols.Nodup
  filled_once : ∀ index < server.handlers.books.length,
    index < maxSymbols ∧ server.filled.count index = 1
  placed_found : ∀ placed ∈ server.placed, ∃ registered,
    server.handlers.findBook placed.record.symbol = some (placed.index, registered) ∧
      server.handlers.InBook registered placed
  stored_found : ∀ (index : Nat) (registered : RegisteredBook α),
    server.handlers.books[index]? = some registered → ∀ order ∈ registered.storedOrders,
      server.handlers.findBook (server.handlers.orders order).symbol = some (index, registered)

section Steps

variable [LT α] [DecidableLT α] [BEq α]

/-- A step of a worker that is not at that point of `handle_place_order` does nothing. An
append past the end of the arrays, which the source makes without a check, is recorded as an
entry at an index that the arrays do not have. -/
def step (server : PlacingServer α) : PlacementStep α → PlacingServer α
  | .lookUp worker order =>
      match server.workers worker with
      | .idle =>
          match server.handlers.findBook order.symbol with
          | some (index, _) =>
              { server with workers := Function.update server.workers worker (.holds order index) }
          | none =>
              { server with workers := Function.update server.workers worker (.missed order) }
      | _ => server
  | .createBook worker =>
      match server.workers worker with
      | .missed order =>
          match OrderBook.create server.handlers.tradeBroadcaster with
          | none => { server with workers := Function.update server.workers worker .idle }
          | some book =>
              let index := server.handlers.books.length
              { server with
                handlers := { server.handlers with
                  books := server.handlers.books ++
                    [{ symbol := order.symbol.take 15, book := book }] }
                workers := Function.update server.workers worker (.holds order index)
                filled := server.filled ++ [index] }
      | _ => server
  | .addAndMatch worker created =>
      match server.workers worker with
      | .holds order index =>
          match Order.create order.orderId order.traderId order.symbol order.price
              order.quantity order.isBuy created, server.handlers.books[index]? with
          | some newOrder, some registered =>
              let handlers := server.handlers
              let after := handlers.addAndMatch registered.book newOrder
              { server with
                handlers := { handlers.update index registered after with
                  nextAddress := handlers.nextAddress + 1 }
                workers := Function.update server.workers worker .idle
                placed := server.placed ++
                  [{ address := handlers.nextAddress, record := newOrder, index := index }] }
          | _, _ => { server with workers := Function.update server.workers worker .idle }
      | _ => server

section CreateBook

variable {server : PlacingServer α} {worker : Nat} {order : OrderMessage α}
  (hworker : server.workers worker = .missed order)
include hworker

theorem step_createBook_none (hbroadcaster : server.handlers.tradeBroadcaster = none) :
    server.step (.createBook worker) =
      { server with workers := Function.update server.workers worker .idle } := by
  rw [step, hworker, hbroadcaster]
  rfl

theorem step_createBook_some (hbroadcaster : server.handlers.tradeBroadcaster ≠ none) :
    server.step (.createBook worker) =
      { server with
        handlers := { server.handlers with
          books := server.handlers.books ++
            [{ symbol := order.symbol.take 15, book := OrderBook.empty }] }
        workers := Function.update server.workers worker
          (.holds order server.handlers.books.length)
        filled := server.filled ++ [server.handlers.books.length] } := by
  obtain ⟨broadcaster, hsome⟩ := Option.ne_none_iff_exists'.mp hbroadcaster
  rw [step, hworker, hsome]
  rfl

end CreateBook

/-- The three steps of one worker without another in between are
`handle_place_order`. -/
theorem run_one_worker (server : PlacingServer α) {worker : Nat}
    (hidle : server.workers worker = .idle) (order : OrderMessage α) (created confirmed : Int) :
    (Transition.run step server
      [.lookUp worker order, .createBook worker, .addAndMatch worker created]).handlers =
      (server.handlers.handlePlaceOrder created confirmed (some order)).1 := by
  cases hfound : server.handlers.findBook order.symbol with
  | some found =>
      obtain ⟨index, registered⟩ := found
      have hget := (ServerHandlers.findBook_eq_some hfound).1
      rw [ServerHandlers.handlePlaceOrder, ServerHandlers.findOrCreateBook_of_found hfound]
      cases hcreate : Order.create order.orderId order.traderId order.symbol order.price
          order.quantity order.isBuy created with
      | none => simp [step, hidle, hfound, hcreate]
      | some newOrder => simp [step, hidle, hfound, hcreate, hget]
  | none =>
      by_cases hbroadcaster : server.handlers.tradeBroadcaster = none
      · rw [ServerHandlers.handlePlaceOrder_of_no_broadcaster hfound hbroadcaster]
        simp [step, hidle, hfound, hbroadcaster, OrderBook.create]
      · obtain ⟨broadcaster, hsome⟩ := Option.ne_none_iff_exists'.mp hbroadcaster
        rw [ServerHandlers.handlePlaceOrder,
          ServerHandlers.findOrCreateBook_of_missing hfound hbroadcaster]
        cases hcreate : Order.create order.orderId order.traderId order.symbol order.price
            order.quantity order.isBuy created with
        | none => simp [step, hidle, hfound, hsome, hcreate, OrderBook.create]
        | some newOrder =>
            simp [step, hidle, hfound, hsome, hcreate, OrderBook.create,
              ServerHandlers.addAndMatch]

end Steps

section Ordered

variable [LinearOrder α]

/-- The step finds its place free: an append an entry of the arrays for a symbol that has
no book, unless no book can be created, and an addition a key that no order on its side
of the book has. -/
def FindsPlace (server : PlacingServer α) : PlacementStep α → Prop
  | .lookUp _ _ => True
  | .createBook worker => ∀ order, server.workers worker = .missed order →
      server.handlers.tradeBroadcaster = none ∨
        server.handlers.books.length < maxSymbols ∧
          order.symbol.take 15 ∉ server.handlers.symbols
  | .addAndMatch worker created => ∀ order index newOrder registered,
      server.workers worker = .holds order index →
      Order.create order.orderId order.traderId order.symbol order.price order.quantity
        order.isBuy created = some newOrder →
      server.handlers.books[index]? = some registered →
        server.handlers.FreeKey registered newOrder

/-- What the steps maintain: every worker that holds a book is at an index registered
for its symbol, and so is every placed order, which is in the book there. -/
structure Coherent (server : PlacingServer α) : Prop where
  nodup : server.handlers.symbols.Nodup
  tracked : ∃ events, LifeHistory.Tracked server.handlers events
  within : server.handlers.books.length ≤ maxSymbols
  filled_eq : server.filled = List.range server.handlers.books.length
  holds : ∀ worker order index, server.workers worker = .holds order index →
    server.handlers.symbols[index]? = some order.symbol ∨
      server.handlers.symbols[index]? = some (order.symbol.take 15)
  placed : ∀ placed ∈ server.placed, placed.address < server.handlers.nextAddress ∧
    ∃ registered, server.handlers.books[placed.index]? = some registered ∧
      registered.symbol = placed.record.symbol ∧ server.handlers.InBook registered placed

namespace Coherent

variable {server : PlacingServer α}

theorem create (orders : Nat → Order α) (broadcaster : Option TradeBroadcaster) :
    (PlacingServer.create orders broadcaster).Coherent :=
  ⟨List.nodup_nil, ⟨[], LifeHistory.create_tracked orders broadcaster⟩, Nat.zero_le _, rfl,
    nofun, nofun⟩

theorem oneBookPerSymbol (hserver : server.Coherent) : server.OneBookPerSymbol := by
  obtain ⟨_, htracked⟩ := hserver.tracked
  refine ⟨hserver.nodup, ?_, ?_, ?_⟩
  · intro index hindex
    refine ⟨hindex.trans_le hserver.within, ?_⟩
    rw [hserver.filled_eq]
    exact List.count_eq_one_of_mem List.nodup_range (List.mem_range.mpr hindex)
  · intro placed hplaced
    obtain ⟨_, registered, hget, hsymbol, hin⟩ := hserver.placed placed hplaced
    exact ⟨registered, hsymbol ▸ ServerHandlers.findBook_of_nodup hserver.nodup hget, hin⟩
  · intro index registered hget order horder
    have hsymbol : (server.handlers.orders order).symbol = registered.symbol :=
      (htracked.settled.books index registered hget).symbols order horder
    rw [hsymbol]
    exact ServerHandlers.findBook_of_nodup hserver.nodup hget

/-- A worker that takes up a message or lets go of it. -/
theorem setWorker (hserver : server.Coherent) (worker : Nat) {placement : Placement α}
    (hplacement : ∀ order index, placement = .holds order index →
      server.handlers.symbols[index]? = some order.symbol) :
    Coherent { server with workers := Function.update server.workers worker placement } := by
  refine { hserver with holds := ?_ }
  intro other order index hholds
  simp only [Function.update_apply] at hholds
  split_ifs at hholds
  · exact Or.inl (hplacement order index hholds)
  · exact hserver.holds other order index hholds

/-- Appending a book for a symbol that is not registered. -/
theorem append (hserver : server.Coherent) (worker : Nat) (order : OrderMessage α)
    (hroom : server.handlers.books.length < maxSymbols)
    (hnew : order.symbol.take 15 ∉ server.handlers.symbols) :
    Coherent
      { server with
        handlers := { server.handlers with
          books := server.handlers.books ++
            [{ symbol := order.symbol.take 15, book := OrderBook.empty }] }
        workers := Function.update server.workers worker
          (.holds order server.handlers.books.length)
        filled := server.filled ++ [server.handlers.books.length] } := by
  have hlength : server.handlers.symbols.length = server.handlers.books.length :=
    List.length_map _
  -- registered symbols keep their index
  have hkept : ∀ {index : Nat} {symbol : CString},
      server.handlers.symbols[index]? = some symbol →
        (server.handlers.symbols ++ [order.symbol.take 15])[index]? = some symbol := by
    intro index symbol hget
    have hlt := (List.getElem?_eq_some_iff.mp hget).1
    rwa [List.getElem?_append_left hlt]
  have hsymbols : List.map RegisteredBook.symbol (server.handlers.books ++
        [{ symbol := order.symbol.take 15, book := OrderBook.empty }]) =
      server.handlers.symbols ++ [order.symbol.take 15] :=
    List.map_append
  obtain ⟨events, htracked⟩ := hserver.tracked
  refine ⟨?_, ⟨events, htracked.register _⟩, ?_, ?_, ?_, ?_⟩
  · rw [ServerHandlers.symbols, hsymbols]
    exact hserver.nodup.append (List.nodup_singleton _)
      (List.disjoint_singleton.mpr hnew)
  · rw [List.length_append, List.length_singleton]
    exact hroom
  · rw [hserver.filled_eq, List.length_append, List.length_singleton, List.range_succ]
  · intro other message index hholds
    rw [ServerHandlers.symbols, hsymbols]
    simp only [Function.update_apply] at hholds
    split_ifs at hholds
    · obtain ⟨rfl, rfl⟩ : order = message ∧ server.handlers.books.length = index := by
        simpa using hholds
      apply Or.inr
      rw [← hlength]
      exact List.getElem?_concat_length
    · exact (hserver.holds other message index hholds).imp hkept hkept
  · intro placed hplaced
    obtain ⟨hlt, registered, hget, hsymbol, hin⟩ := hserver.placed placed hplaced
    refine ⟨hlt, registered, ?_, hsymbol, hin.terms, hin.present⟩
    rwa [List.getElem?_append_left (List.getElem?_eq_some_iff.mp hget).1]

/-- A worker that holds a book is at an index registered for the full symbol of an order
that `order_create` accepts. -/
theorem registered_of_holds (hserver : server.Coherent) {worker index : Nat}
    {order : OrderMessage α} (hworker : server.workers worker = .holds order index)
    {created : Int} {newOrder : Order α}
    (hcreate : Order.create order.orderId order.traderId order.symbol order.price order.quantity
      order.isBuy created = some newOrder)
    {registered : RegisteredBook α}
    (hindex : server.handlers.books[index]? = some registered) :
    registered.symbol = newOrder.symbol := by
  obtain ⟨hshort, hnewSymbol⟩ := Order.create_symbol hcreate
  have hkept : order.symbol.take 15 = order.symbol :=
    List.take_of_length_le (Nat.le_of_lt_succ hshort)
  have hholds := hserver.holds worker order index hworker
  rw [hkept, or_self] at hholds
  obtain ⟨entry, hget, hentry⟩ := ServerHandlers.getElem?_symbols.mp hholds
  obtain rfl : registered = entry := Option.some.inj (hindex.symm.trans hget)
  exact hentry.trans hnewSymbol.symm

/-- Adding an order with a key of its own to the book a worker holds. -/
theorem place (hserver : server.Coherent) {worker index : Nat} {order : OrderMessage α}
    (hworker : server.workers worker = .holds order index) {created : Int} {newOrder : Order α}
    (hcreate : Order.create order.orderId order.traderId order.symbol order.price order.quantity
      order.isBuy created = some newOrder)
    {registered : RegisteredBook α} (hindex : server.handlers.books[index]? = some registered)
    (hfree : server.handlers.FreeKey registered newOrder) :
    Coherent
      { server with
        handlers := { server.handlers.update index registered
            (server.handlers.addAndMatch registered.book newOrder) with
          nextAddress := server.handlers.nextAddress + 1 }
        workers := Function.update server.workers worker .idle
        placed := server.placed ++ [{ address := server.handlers.nextAddress
                                      record := newOrder
                                      index := index }] } := by
  obtain ⟨events, htracked⟩ := hserver.tracked
  have hfresh := Order.create_fresh hcreate
  have hsymbol := hserver.registered_of_holds hworker hcreate hindex
  obtain ⟨added, hplaced⟩ := htracked.settled.placed hindex newOrder
  have hsymbols := ServerHandlers.symbols_update hindex
    (server.handlers.addAndMatch registered.book newOrder)
  refine ⟨hsymbols ▸ hserver.nodup,
    ⟨_, htracked.addAndMatch hindex hfresh hsymbol.symm⟩, ?_, ?_, ?_, ?_⟩
  · rw [ServerHandlers.update, List.length_set]
    exact hserver.within
  · rw [hserver.filled_eq, ServerHandlers.update, List.length_set]
  · intro other message position hholds
    simp only [Function.update_apply] at hholds
    split_ifs at hholds
    exact hsymbols ▸ hserver.holds other message position hholds
  · intro placed hmem
    rcases List.mem_append.mp hmem with hold | hlast
    · obtain ⟨hlt, entry, hget, hentry, hin⟩ := hserver.placed placed hold
      obtain ⟨entry', hget', hentry', hin'⟩ :=
        hin.place htracked hindex hget hplaced hfresh hlt
      exact ⟨hlt.trans (Nat.lt_succ_self _), entry', hget', hentry'.trans hentry,
        hin'.terms, hin'.present⟩
    · rw [List.mem_singleton.mp hlast]
      have hin := ServerHandlers.InBook.arrived htracked hplaced hfresh hfree index
      refine ⟨Nat.lt_succ_self _, { registered with
        book := (server.handlers.addAndMatch registered.book newOrder).book }, ?_, hsymbol,
        hin.terms, hin.present⟩
      exact List.getElem?_set_self (List.getElem?_eq_some_iff.mp hindex).1

theorem step (hserver : server.Coherent) {action : PlacementStep α}
    (hallowed : server.FindsPlace action) : (server.step action).Coherent := by
  cases action with
  | lookUp worker order =>
      unfold PlacingServer.step
      dsimp only
      split
      · split
        · rename_i index registered hfound
          obtain ⟨hget, hsymbol⟩ := ServerHandlers.findBook_eq_some hfound
          apply hserver.setWorker worker
          rintro _ _ ⟨⟩
          exact ServerHandlers.getElem?_symbols.mpr ⟨registered, hget, hsymbol⟩
        · exact hserver.setWorker worker nofun
      · exact hserver
  | createBook worker =>
      cases hworker : server.workers worker with
      | missed order =>
          by_cases hbroadcaster : server.handlers.tradeBroadcaster = none
          · rw [step_createBook_none hworker hbroadcaster]
            exact hserver.setWorker worker nofun
          · rw [step_createBook_some hworker hbroadcaster]
            obtain ⟨hroom, hnew⟩ := (hallowed order hworker).resolve_left hbroadcaster
            exact hserver.append worker order hroom hnew
      | idle =>
          rw [PlacingServer.step, hworker]
          exact hserver
      | holds order index =>
          rw [PlacingServer.step, hworker]
          exact hserver
  | addAndMatch worker created =>
      unfold PlacingServer.step
      dsimp only
      split
      · rename_i order index hworker
        split
        · rename_i newOrder registered hcreate hindex
          exact hserver.place hworker hcreate hindex
            (hallowed order index newOrder registered hworker hcreate hindex)
        · exact hserver.setWorker worker nofun
      · exact hserver

/-- An append past the end of the arrays or for a registered symbol breaks the property,
and so does an addition of an order whose key is taken. -/
theorem findsPlace (hserver : server.Coherent) {action : PlacementStep α}
    (hafter : (server.step action).OneBookPerSymbol) : server.FindsPlace action := by
  cases action with
  | lookUp worker order => trivial
  | createBook worker =>
      intro order hworker
      by_cases hbroadcaster : server.handlers.tradeBroadcaster = none
      · exact Or.inl hbroadcaster
      · rw [step_createBook_some hworker hbroadcaster] at hafter
        refine Or.inr ⟨?_, fun hmem => ?_⟩
        · refine (hafter.filled_once server.handlers.books.length ?_).1
          rw [List.length_append, List.length_singleton]
          exact Nat.lt_succ_self _
        · have hnodup := hafter.symbols_nodup
          simp only [ServerHandlers.symbols, List.map_append, List.map_cons,
            List.map_nil] at hnodup
          exact List.disjoint_of_nodup_append hnodup hmem (List.mem_singleton_self _)
  | addAndMatch worker created =>
      intro order index newOrder registered hworker hcreate hindex
      obtain ⟨events, htracked⟩ := hserver.tracked
      obtain ⟨added, hplaced⟩ := htracked.settled.placed hindex newOrder
      unfold PlacingServer.step at hafter
      simp only [hworker, hcreate, hindex] at hafter
      obtain ⟨entry, hfound, hin⟩ := hafter.placed_found _
        (List.mem_append_right _ (List.mem_singleton_self _))
      -- the look-up returns what has become of the book
      have hget := (ServerHandlers.findBook_eq_some hfound).1
      have hset := List.getElem?_set_self (a := { registered with
          book := (server.handlers.addAndMatch registered.book newOrder).book })
        (List.getElem?_eq_some_iff.mp hindex).1
      obtain rfl := Option.some.inj (hset.symm.trans hget)
      exact ServerHandlers.InBook.free htracked hplaced ⟨hin.terms, hin.present⟩

end Coherent

/-- For any interleaving of the steps of any workers, there is one book per symbol,
which has the orders placed for it, in every state of the run exactly when every append
and every addition finds its place free. -/
theorem one_book_per_symbol_iff (orders : Nat → Order α) (broadcaster : Option TradeBroadcaster)
    (steps : List (PlacementStep α)) :
    (∀ count, (Transition.run step (create orders broadcaster)
      (steps.take count)).OneBookPerSymbol) ↔
      Transition.Along step FindsPlace (create orders broadcaster) steps :=
  Transition.forall_states_iff_along step Coherent OneBookPerSymbol
    (fun _ h => h.oneBookPerSymbol) (fun _ _ h hallowed => h.step hallowed)
    (fun _ _ h hnot hafter => hnot (h.findsPlace hafter))
    (Coherent.create orders broadcaster) steps

end Ordered

/-- Two workers look for `AAPL` before either has registered it: both append a book,
and the order of the second worker is in a book that no look-up returns. -/
theorem two_books_for_one_symbol :
    let order (orderId : String) : OrderMessage Int :=
      { symbol := "AAPL".toList, orderId := orderId.toList, traderId := "T1".toList
        price := 10, quantity := 5, isBuy := true }
    let server := Transition.run step
      (create (fun _ => Order.sample "" 0 0 true 0) (some ⟨0⟩))
      [.lookUp 0 (order "O1"), .lookUp 1 (order "O2"), .createBook 0, .createBook 1,
        .addAndMatch 0 0, .addAndMatch 1 0]
    ¬ server.OneBookPerSymbol ∧ server.handlers.symbols = ["AAPL".toList, "AAPL".toList] ∧
      server.placed.map PlacedOrder.index = [0, 1] ∧
      (server.handlers.findBook "AAPL".toList).map Prod.fst = some 0 := by
  intro order server
  have hsymbols : server.handlers.symbols = ["AAPL".toList, "AAPL".toList] := by decide
  refine ⟨fun hone => ?_, hsymbols, by decide, by decide⟩
  have hnodup := hone.symbols_nodup
  rw [hsymbols] at hnodup
  exact absurd hnodup (by decide)

end PlacingServer

end QuantTrading
