import QuantTrading.Server.Handlers

/-! # The book registry

The books of a server stand in two arrays of `MAX_SYMBOLS` entries. Two operations
append to them: `handle_place_order` for the first order of a symbol, and
`server_handlers_add_order_book`. Only the second one looks at the capacity.
-/

namespace QuantTrading

/-- `MAX_SYMBOLS` of `server_handlers.c`. -/
def maxSymbols : Nat := 100

variable {α : Type*}

namespace ServerHandlers

/-- The filled part of the array `symbols`. -/
def symbols (handlers : ServerHandlers α) : List CString :=
  handlers.books.map RegisteredBook.symbol

/-- `server_handlers_get_order_book`. -/
def getOrderBook (handlers : ServerHandlers α) (symbol : CString) : Option (OrderBook α Nat) :=
  (handlers.findBook symbol).map fun found => found.2.book

/-- `server_handlers_add_order_book`: the return code and the handlers afterwards. -/
def addOrderBook (handlers : ServerHandlers α) (symbol : CString) : Int × ServerHandlers α :=
  if maxSymbols ≤ handlers.books.length then (-1, handlers)
  else
    match handlers.findBook symbol with
    | some _ => (-1, handlers)
    | none =>
        match OrderBook.create handlers.tradeBroadcaster with
        | none => (-1, handlers)
        | some book =>
            (0, { handlers with
              books := handlers.books ++ [{ symbol := symbol.take 15, book := book }] })

end ServerHandlers

/-- A call of one of the two operations. -/
inductive RegistryCall (α : Type*) where
  | placeOrder (created confirmed : Int) (message : Option (OrderMessage α)) : RegistryCall α
  | addOrderBook (symbol : CString) : RegistryCall α

/-- The symbol a call asks for. -/
def RegistryCall.symbol : RegistryCall α → Option CString
  | .placeOrder _ _ message => message.map OrderMessage.symbol
  | .addOrderBook symbol => some symbol

namespace ServerHandlers

section Lookup

variable {handlers : ServerHandlers α} {symbol : CString}

theorem findBook_eq_some {index : Nat} {registered : RegisteredBook α}
    (hfound : handlers.findBook symbol = some (index, registered)) :
    handlers.books[index]? = some registered ∧ registered.symbol = symbol := by
  obtain ⟨position, hposition, hentry⟩ := Option.bind_eq_some_iff.mp hfound
  obtain ⟨entry, hget, heq⟩ := Option.map_eq_some_iff.mp hentry
  obtain ⟨rfl, rfl⟩ : position = index ∧ entry = registered := by simpa using heq
  obtain ⟨hlt, hsymbol, _⟩ := List.findIdx?_eq_some_iff_getElem.mp hposition
  obtain ⟨_, rfl⟩ := List.getElem?_eq_some_iff.mp hget
  exact ⟨hget, by simpa using hsymbol⟩

theorem getElem?_symbols {handlers : ServerHandlers α} {index : Nat} {symbol : CString} :
    handlers.symbols[index]? = some symbol ↔
      ∃ registered, handlers.books[index]? = some registered ∧ registered.symbol = symbol := by
  rw [symbols, List.getElem?_map, Option.map_eq_some_iff]

theorem symbols_update {handlers : ServerHandlers α} {index : Nat} {registered : RegisteredBook α}
    (hindex : handlers.books[index]? = some registered) (after : Engine α Nat) :
    (handlers.update index registered after).symbols = handlers.symbols := by
  obtain ⟨hlt, hvalue⟩ := List.getElem?_eq_some_iff.mp hindex
  have hsame : (handlers.books.map RegisteredBook.symbol).set index registered.symbol =
      handlers.books.map RegisteredBook.symbol := by
    rw [← hvalue, ← List.getElem_map RegisteredBook.symbol (h := by simpa using hlt)]
    exact List.set_getElem_self _
  rw [symbols, update, List.map_set]
  exact hsame

theorem findOrCreateBook_of_found {found : Nat × RegisteredBook α}
    (hfound : handlers.findBook symbol = some found) :
    handlers.findOrCreateBook symbol = (some found, handlers) := by
  rw [findOrCreateBook, hfound]

theorem findOrCreateBook_of_no_broadcaster (hmissing : handlers.findBook symbol = none)
    (hbroadcaster : handlers.tradeBroadcaster = none) :
    handlers.findOrCreateBook symbol = (none, handlers) := by
  rw [findOrCreateBook, hmissing, hbroadcaster]
  rfl

/-- A symbol without a book gets a new one at the end, whatever the capacity. -/
theorem findOrCreateBook_of_missing (hmissing : handlers.findBook symbol = none)
    (hbroadcaster : handlers.tradeBroadcaster ≠ none) :
    handlers.findOrCreateBook symbol =
      (some (handlers.books.length, { symbol := symbol.take 15, book := OrderBook.empty }),
        { handlers with books := handlers.books ++
          [{ symbol := symbol.take 15, book := OrderBook.empty }] }) := by
  obtain ⟨broadcaster, hsome⟩ := Option.ne_none_iff_exists'.mp hbroadcaster
  rw [findOrCreateBook, hmissing, hsome]
  rfl

/-- Finding or creating a book registers at most an empty one; what it returns is
registered under the symbol, as far as the array keeps it. -/
theorem findOrCreateBook_spec {found : Option (Nat × RegisteredBook α)} {after : ServerHandlers α}
    (hfind : handlers.findOrCreateBook symbol = (found, after)) :
    (after = handlers ∨ after = { handlers with
      books := handlers.books ++ [{ symbol := symbol.take 15, book := OrderBook.empty }] }) ∧
    ∀ index registered, found = some (index, registered) →
      after.books[index]? = some registered ∧
        (registered.symbol = symbol ∨ registered.symbol = symbol.take 15) := by
  cases hlookup : handlers.findBook symbol with
  | some entry =>
      rw [findOrCreateBook_of_found hlookup] at hfind
      cases hfind
      refine ⟨Or.inl rfl, ?_⟩
      rintro index registered ⟨⟩
      obtain ⟨hget, hsymbol⟩ := findBook_eq_some hlookup
      exact ⟨hget, Or.inl hsymbol⟩
  | none =>
      by_cases hbroadcaster : handlers.tradeBroadcaster = none
      · rw [findOrCreateBook_of_no_broadcaster hlookup hbroadcaster] at hfind
        cases hfind
        exact ⟨Or.inl rfl, nofun⟩
      · rw [findOrCreateBook_of_missing hlookup hbroadcaster] at hfind
        cases hfind
        refine ⟨Or.inr rfl, ?_⟩
        rintro index registered ⟨⟩
        exact ⟨List.getElem?_concat_length, Or.inr rfl⟩

theorem addOrderBook_full (hfull : maxSymbols ≤ handlers.books.length) :
    handlers.addOrderBook symbol = (-1, handlers) :=
  if_pos hfull

theorem addOrderBook_length (handlers : ServerHandlers α) (symbol : CString) :
    (handlers.addOrderBook symbol).2.books.length ≤ handlers.books.length ∨
      handlers.books.length < maxSymbols ∧
        (handlers.addOrderBook symbol).2.books.length = handlers.books.length + 1 := by
  unfold addOrderBook
  split_ifs with hfull
  · exact Or.inl le_rfl
  · cases hfound : handlers.findBook symbol with
    | some found => exact Or.inl le_rfl
    | none =>
        cases hbook : (OrderBook.create handlers.tradeBroadcaster : Option (OrderBook α Nat)) with
        | none => exact Or.inl le_rfl
        | some book => exact Or.inr ⟨Nat.lt_of_not_le hfull, List.length_append⟩

end Lookup

variable [LT α] [DecidableLT α] [BEq α]

/-- The handlers after a call. -/
def perform (handlers : ServerHandlers α) : RegistryCall α → ServerHandlers α
  | .placeOrder created confirmed message =>
      (handlers.handlePlaceOrder created confirmed message).1
  | .addOrderBook symbol => (handlers.addOrderBook symbol).2

/-- The call reports a failure. -/
def Refuses (handlers : ServerHandlers α) : RegistryCall α → Prop
  | .placeOrder created confirmed message =>
      (handlers.handlePlaceOrder created confirmed message).2 = [.error "Failed to place order"]
  | .addOrderBook symbol => (handlers.addOrderBook symbol).1 = -1

/-- A call stays within the arrays. The entries it writes are those from the old
`book_count` up to the new one. -/
structure StaysWithin (handlers : ServerHandlers α) (call : RegistryCall α) : Prop where
  count_le : (handlers.perform call).books.length ≤ maxSymbols
  writes_lt : ∀ index, handlers.books.length ≤ index →
    index < (handlers.perform call).books.length → index < maxSymbols
  refused : ∀ symbol, call.symbol = some symbol → handlers.findBook symbol = none →
    maxSymbols ≤ handlers.books.length →
      handlers.Refuses call ∧ (handlers.perform call).books = handlers.books

/-- A place message for a symbol without a book finds room for one, or no book can
be created for it. -/
def HasRoom (handlers : ServerHandlers α) : RegistryCall α → Prop
  | .placeOrder _ _ (some order) => handlers.findBook order.symbol = none →
      handlers.tradeBroadcaster = none ∨ handlers.books.length < maxSymbols
  | _ => True

variable {handlers : ServerHandlers α}

/-- Placing an order for a symbol that has a book registers nothing. -/
theorem handlePlaceOrder_of_found {order : OrderMessage α} {found : Nat × RegisteredBook α}
    (hfound : handlers.findBook order.symbol = some found) (created confirmed : Int) :
    (handlers.handlePlaceOrder created confirmed (some order)).1.books.length =
      handlers.books.length := by
  rw [handlePlaceOrder, findOrCreateBook_of_found hfound]
  dsimp only
  split
  · rfl
  · exact List.length_set

theorem handlePlaceOrder_of_no_broadcaster {order : OrderMessage α}
    (hmissing : handlers.findBook order.symbol = none)
    (hbroadcaster : handlers.tradeBroadcaster = none) (created confirmed : Int) :
    handlers.handlePlaceOrder created confirmed (some order) =
      (handlers, [.error "Failed to place order"]) := by
  rw [handlePlaceOrder, findOrCreateBook_of_no_broadcaster hmissing hbroadcaster]

/-- Placing an order for a new symbol registers a book. -/
theorem handlePlaceOrder_of_missing {order : OrderMessage α}
    (hmissing : handlers.findBook order.symbol = none)
    (hbroadcaster : handlers.tradeBroadcaster ≠ none) (created confirmed : Int) :
    (handlers.handlePlaceOrder created confirmed (some order)).1.books.length =
      handlers.books.length + 1 := by
  rw [handlePlaceOrder, findOrCreateBook_of_missing hmissing hbroadcaster]
  dsimp only
  split
  · exact List.length_append
  · rw [update, List.length_set, List.length_append, List.length_singleton]

/-- As long as the registry is within its arrays, a call stays within them exactly
when it has room. -/
theorem staysWithin_iff_hasRoom (hcount : handlers.books.length ≤ maxSymbols)
    (call : RegistryCall α) : handlers.StaysWithin call ↔ handlers.HasRoom call := by
  -- the written indices are below the new count
  have hintro : (handlers.perform call).books.length ≤ maxSymbols →
      (∀ symbol, call.symbol = some symbol → handlers.findBook symbol = none →
        maxSymbols ≤ handlers.books.length →
          handlers.Refuses call ∧ (handlers.perform call).books = handlers.books) →
      handlers.StaysWithin call :=
    fun hle hrefused => ⟨hle, fun _ _ hlt => hlt.trans_le hle, hrefused⟩
  cases call with
  | addOrderBook symbol =>
      refine iff_of_true (hintro ?_ ?_) trivial
      · rcases handlers.addOrderBook_length symbol with hle | ⟨hlt, hsucc⟩
        · exact hle.trans hcount
        · exact hsucc.trans_le hlt
      · intro _ _ _ hfull
        rw [Refuses, perform, addOrderBook_full hfull]
        exact ⟨rfl, rfl⟩
  | placeOrder created confirmed message =>
      cases message with
      | none => exact iff_of_true (hintro hcount nofun) trivial
      | some order =>
          cases hfound : handlers.findBook order.symbol with
          | some found =>
              refine iff_of_true (hintro ?_ ?_) fun hmissing => ?_
              · exact (handlePlaceOrder_of_found hfound created confirmed).trans_le hcount
              · rintro _ ⟨⟩ hmissing
                exact absurd (hfound.symm.trans hmissing) (Option.some_ne_none found)
              · exact absurd (hfound.symm.trans hmissing) (Option.some_ne_none found)
          | none =>
              by_cases hbroadcaster : handlers.tradeBroadcaster = none
              · have hsame := handlePlaceOrder_of_no_broadcaster hfound hbroadcaster created
                  confirmed
                refine iff_of_true (hintro ?_ ?_) fun _ => Or.inl hbroadcaster
                · rw [perform, hsame]
                  exact hcount
                · intro _ _ _ _
                  rw [Refuses, perform, hsame]
                  exact ⟨rfl, rfl⟩
              · have hsucc := handlePlaceOrder_of_missing hfound hbroadcaster created confirmed
                constructor
                · intro hwithin _
                  exact Or.inr (hsucc.symm.trans_le hwithin.count_le)
                · intro hroom
                  have hlt := (hroom hfound).resolve_left hbroadcaster
                  exact hintro (hsucc.trans_le hlt) fun _ _ _ hfull => absurd hlt (by omega)

/-- The registry stays within its arrays along a run of calls exactly when every
place message for a new symbol finds room for its book: `handle_place_order` is
the operation that does not check. -/
theorem registry_within_iff (orders : Nat → Order α) (broadcaster : Option TradeBroadcaster)
    (calls : List (RegistryCall α)) :
    Transition.Along perform StaysWithin (create orders broadcaster) calls ↔
      Transition.Along perform HasRoom (create orders broadcaster) calls := by
  refine Transition.along_congr perform (fun handlers => handlers.books.length ≤ maxSymbols)
    (fun handlers call hcount => staysWithin_iff_hasRoom hcount call) ?_ (Nat.zero_le _) calls
  intro handlers call hcount hroom
  exact ((staysWithin_iff_hasRoom hcount call).mpr hroom).count_le

/-- A hundred calls that register one-letter symbols. -/
def hundredBooks : List (RegistryCall Int) :=
  (List.range 100).map fun position => .addOrderBook [Char.ofNat (position + 1)]

/-- After a hundred registered books a place message for `AAPL` registers another
one, at index 100 of arrays with a hundred entries. -/
theorem registry_overflows :
    let order : OrderMessage Int :=
      { symbol := "AAPL".toList, orderId := "O1".toList, traderId := "T1".toList
        price := 10, quantity := 5, isBuy := true }
    ¬ Transition.Along perform StaysWithin
      (create (fun _ => Order.sample "" 0 0 true 0) (some ⟨0⟩))
      (hundredBooks ++ [.placeOrder 0 0 (some order)]) := by
  intro order halong
  have hlast := ((Transition.along_append perform).mp halong).2.1
  have hcount := hlast.count_le
  revert hcount
  decide +kernel

end ServerHandlers

end QuantTrading
