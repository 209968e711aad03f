import QuantTrading.Server.Worker

/-! # Place and cancel messages

A place message is copied into the fixed-size fields of `OrderMessage` before the
server acts on it, and its `is_buy` counts when it is the literal `true`. A cancel
message is used as it is in the JSON value, and its `is_buy` counts when its integer
value is not zero. This module says when the two name the same order.
-/

namespace QuantTrading

/-- Where `handle_cancel_order` searches: the book by its index, the side, and the id. -/
structure CancelTarget where
  index : Nat
  isBuyOrder : Bool
  orderId : CString
deriving DecidableEq, Repr

namespace ServerHandlers

section Target

variable {α : Type*}

/-- Where `handle_cancel_order` searches, `none` when it gives up before. -/
def cancelTarget (handlers : ServerHandlers α) (request : CancelRequest) : Option CancelTarget :=
  match request.orderId, request.symbol, request.isBuy with
  | some orderId, some symbol, some isBuy =>
      (handlers.findBook symbol).map fun found =>
        { index := found.1, isBuyOrder := decide (isBuy ≠ 0), orderId := orderId }
  | _, _, _ => none

/-- Only the registered symbols decide which book is found. -/
theorem findBook_index (handlers : ServerHandlers α) (symbol : CString) :
    (handlers.findBook symbol).map Prod.fst =
      handlers.symbols.findIdx? fun registered => registered = symbol := by
  rw [symbols, List.findIdx?_map]
  unfold findBook
  cases hfind : handlers.books.findIdx? fun registered => registered.symbol = symbol with
  | none =>
      rw [Option.bind_none, Option.map_none]
      exact hfind.symm
  | some index =>
      obtain ⟨hlt, _⟩ := List.findIdx?_eq_some_iff_getElem.mp hfind
      rw [Option.bind_some, List.getElem?_eq_getElem hlt]
      exact hfind.symm

/-- After the book of a symbol that fits was found or created, it is the one that is
found. -/
theorem findBook_of_findOrCreateBook {handlers after : ServerHandlers α} {symbol : CString}
    (hfits : symbol.length ≤ 15) {index : Nat} {registered : RegisteredBook α}
    (hfind : handlers.findOrCreateBook symbol = (some (index, registered), after)) :
    (after.findBook symbol).map Prod.fst = some index := by
  cases hlookup : handlers.findBook symbol with
  | some found =>
      rw [findOrCreateBook_of_found hlookup] at hfind
      cases hfind
      rw [hlookup]
      rfl
  | none =>
      by_cases hbroadcaster : handlers.tradeBroadcaster = none
      · rw [findOrCreateBook_of_no_broadcaster hlookup hbroadcaster] at hfind
        cases hfind
      · rw [findOrCreateBook_of_missing hlookup hbroadcaster] at hfind
        have hmissing : (handlers.findBook symbol).map Prod.fst = none := by
          rw [hlookup]
          rfl
        cases hfind
        rw [findBook_index] at hmissing ⊢
        rw [symbols, List.map_append, List.findIdx?_append]
        change Option.or (handlers.symbols.findIdx? fun registered => registered = symbol) _ = _
        rw [hmissing]
        simp [List.take_of_length_le hfits]

end Target

section Runs

variable {α : Type*} [LT α] [DecidableLT α] [BEq α]

/-- The handlers after some messages. -/
def handleAll (handlers : ServerHandlers α) (messages : List (ClientMessage α)) :
    ServerHandlers α :=
  Transition.run (fun handlers message => (handlers.handle message).1) handlers messages

/-- What a place message does: nothing, register a book, or also place its order. -/
theorem handlePlaceOrder_cases (handlers : ServerHandlers α) (created confirmed : Int)
    (message : Option (OrderMessage α)) :
    let result := handlers.handlePlaceOrder created confirmed message
    (∃ reason, result = (handlers, [.error reason])) ∨
    ∃ order found after, message = some order ∧
      handlers.findOrCreateBook order.symbol = (found, after) ∧
      ((∃ reason, result = (after, [.error reason])) ∨
        ∃ index registered newOrder, found = some (index, registered) ∧
          Order.create order.orderId order.traderId order.symbol order.price order.quantity
            order.isBuy created = some newOrder ∧
          let placed := after.addAndMatch registered.book newOrder
          result =
            ({ after.update index registered placed with nextAddress := after.nextAddress + 1 },
              [.orderAccepted order confirmed,
                .bookSnapshot (snapshot placed.orders order.symbol placed.book)])) := by
  intro result
  cases message with
  | none => exact Or.inl ⟨_, rfl⟩
  | some order =>
      right
      cases hfind : handlers.findOrCreateBook order.symbol with
      | mk found after =>
          refine ⟨order, found, after, rfl, hfind, ?_⟩
          cases found with
          | none =>
              refine Or.inl ⟨"Failed to place order", ?_⟩
              simp only [result, handlePlaceOrder, hfind]
          | some found =>
              cases hcreate : Order.create order.orderId order.traderId order.symbol order.price
                  order.quantity order.isBuy created with
              | none =>
                  refine Or.inl ⟨"Failed to place order", ?_⟩
                  simp only [result, handlePlaceOrder, hfind, hcreate]
              | some newOrder =>
                  refine Or.inr ⟨found.1, found.2, newOrder, rfl, rfl, ?_⟩
                  simp only [result, handlePlaceOrder, hfind, hcreate]

/-- What a cancel message does: nothing, or cancel the order that the search finds. -/
theorem handleCancelOrder_cases (handlers : ServerHandlers α) (confirmed : Int)
    (request : CancelRequest) :
    let result := handlers.handleCancelOrder confirmed request
    (handlers.cancelTarget request = none ∧ ∃ reason, result = (handlers, [.error reason])) ∨
    ∃ target registered, handlers.cancelTarget request = some target ∧
      handlers.books[target.index]? = some registered ∧
      let found := Engine.searchById handlers.orders target.orderId target.isBuyOrder
        (registered.book.side target.isBuyOrder).root
      ((found = none ∧
          result = (handlers, [.error "Order not found or already canceled"])) ∨
        ∃ order symbol, found = some order ∧
          result =
            (handlers.update target.index registered
              { handlers.engine registered.book with
                orders := Function.update handlers.orders order (handlers.orders order).cancel },
              [.orderCanceled target.orderId symbol confirmed])) := by
  intro result
  obtain ⟨orderId, symbol, isBuy⟩ := request
  cases orderId with
  | none => exact Or.inl ⟨rfl, _, rfl⟩
  | some orderId =>
      cases symbol with
      | none => exact Or.inl ⟨rfl, _, rfl⟩
      | some symbol =>
          cases hfind : handlers.findBook symbol with
          | none =>
              refine Or.inl ⟨?_, "Order book not found", ?_⟩
              · cases isBuy with
                | none => rfl
                | some isBuy => simp only [cancelTarget, hfind, Option.map_none]
              · simp only [result, handleCancelOrder, hfind]
          | some found =>
              cases isBuy with
              | none =>
                  refine Or.inl ⟨rfl, "Missing is_buy flag", ?_⟩
                  simp only [result, handleCancelOrder, hfind]
              | some isBuy =>
                  refine Or.inr ⟨⟨found.1, decide (isBuy ≠ 0), orderId⟩, found.2, ?_,
                    (findBook_eq_some hfind).1, ?_⟩
                  · simp only [cancelTarget, hfind, Option.map_some]
                  · cases hsearch : Engine.searchById handlers.orders orderId (decide (isBuy ≠ 0))
                        (found.2.book.side (decide (isBuy ≠ 0))).root with
                    | none =>
                        refine Or.inl ⟨rfl, ?_⟩
                        simp only [result, handleCancelOrder, hfind, Engine.cancelOrder, engine,
                          hsearch]
                        rfl
                    | some order =>
                        refine Or.inr ⟨order, symbol, rfl, ?_⟩
                        simp only [result, handleCancelOrder, hfind, Engine.cancelOrder, engine,
                          hsearch]
                        rfl

/-- What is sent for a place message: an error, or a confirmation and a snapshot. -/
theorem handlePlaceOrder_responses (handlers : ServerHandlers α) (created confirmed : Int)
    (message : Option (OrderMessage α)) :
    let responses := (handlers.handlePlaceOrder created confirmed message).2
    (∃ reason, responses = [.error reason]) ∨
      ∃ order sent, message = some order ∧
        responses = [.orderAccepted order confirmed, .bookSnapshot sent] := by
  intro responses
  rcases handlers.handlePlaceOrder_cases created confirmed message with
    ⟨reason, hresult⟩ | ⟨order, found, after, rfl, -, ⟨reason, hresult⟩ |
      ⟨index, registered, newOrder, -, -, hresult⟩⟩
  · exact Or.inl ⟨reason, congrArg Prod.snd hresult⟩
  · exact Or.inl ⟨reason, congrArg Prod.snd hresult⟩
  · exact Or.inr ⟨order, _, rfl, congrArg Prod.snd hresult⟩

/-- What is sent for a cancel message: an error or a confirmation. -/
theorem handleCancelOrder_responses (handlers : ServerHandlers α) (confirmed : Int)
    (request : CancelRequest) :
    let responses := (handlers.handleCancelOrder confirmed request).2
    (∃ reason, responses = [.error reason]) ∨
      ∃ orderId symbol, responses = [.orderCanceled orderId symbol confirmed] := by
  intro responses
  rcases handlers.handleCancelOrder_cases confirmed request with
    ⟨-, reason, hresult⟩ | ⟨target, registered, -, -, ⟨-, hresult⟩ | ⟨order, symbol, -, hresult⟩⟩
  · exact Or.inl ⟨reason, congrArg Prod.snd hresult⟩
  · exact Or.inl ⟨_, congrArg Prod.snd hresult⟩
  · exact Or.inr ⟨target.orderId, symbol, congrArg Prod.snd hresult⟩

omit [LT α] [DecidableLT α] [BEq α] in
/-- What is sent for a book request: an error or a snapshot. -/
theorem handleBookRequest_responses (handlers : ServerHandlers α) (symbol : Option CString) :
    let responses := (handlers.handleBookRequest symbol).2
    (∃ reason, responses = [.error reason]) ∨ ∃ sent, responses = [.bookSnapshot sent] := by
  intro responses
  cases symbol with
  | none => exact Or.inl ⟨_, rfl⟩
  | some symbol =>
      cases hfind : handlers.findBook symbol with
      | none =>
          refine Or.inl ⟨"Order book not found", ?_⟩
          simp only [responses, handleBookRequest, hfind]
      | some found =>
          refine Or.inr ⟨snapshot handlers.orders symbol found.2.book, ?_⟩
          simp only [responses, handleBookRequest, hfind]

omit [LT α] [DecidableLT α] [BEq α] in
/-- What later handlers keep: the registered symbols in their places, with new ones that
fit their array behind them, and the terms of the allocated orders. -/
structure Continues (before after : ServerHandlers α) : Prop where
  symbols : ∃ more, after.symbols = before.symbols ++ more ∧ ∀ symbol ∈ more, symbol.length ≤ 15
  next_le : before.nextAddress ≤ after.nextAddress
  terms : ∀ order < before.nextAddress,
    (after.orders order).terms = (before.orders order).terms

namespace Continues

variable {before middle after : ServerHandlers α}

omit [LT α] [DecidableLT α] [BEq α] in
theorem refl (handlers : ServerHandlers α) : Continues handlers handlers :=
  ⟨⟨[], (List.append_nil _).symm, nofun⟩, le_rfl, fun _ _ => rfl⟩

omit [LT α] [DecidableLT α] [BEq α] in
theorem trans (hfirst : Continues before middle) (hsecond : Continues middle after) :
    Continues before after := by
  obtain ⟨more, hmore, hfits⟩ := hfirst.symbols
  obtain ⟨rest, hrest, hrestFits⟩ := hsecond.symbols
  refine ⟨⟨more ++ rest, ?_, ?_⟩, hfirst.next_le.trans hsecond.next_le, fun order hlt => ?_⟩
  · rw [hrest, hmore, List.append_assoc]
  · intro symbol hsymbol
    exact (List.mem_append.mp hsymbol).elim (hfits symbol) (hrestFits symbol)
  · exact (hsecond.terms order (hlt.trans_le hfirst.next_le)).trans (hfirst.terms order hlt)

omit [LT α] [DecidableLT α] [BEq α] in
theorem findOrCreateBook {symbol : CString} {found : Option (Nat × RegisteredBook α)}
    (hfind : before.findOrCreateBook symbol = (found, after)) : Continues before after := by
  rcases (findOrCreateBook_spec hfind).1 with rfl | rfl
  · exact refl after
  · refine ⟨⟨[symbol.take 15], List.map_append, ?_⟩, le_rfl, fun _ _ => rfl⟩
    intro registered hregistered
    rw [List.mem_singleton.mp hregistered]
    exact List.length_take_le _ _

end Continues

end Runs

end ServerHandlers

section Addressing

variable {α : Type} {cjson : CJson α}

variable [LT α] [DecidableLT α] [BEq α]

end Addressing

end QuantTrading
