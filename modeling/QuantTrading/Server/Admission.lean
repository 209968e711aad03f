import QuantTrading.Server.Worker

/-! # Which orders a server stores

`handle_place_order` stores every order it can parse; `validate_order_message` is
never called on the way. So the stored orders are valid as long as the clients
send nothing else.
-/

namespace QuantTrading

variable {α : Type} {cjson : CJson α}

namespace ServerHandlers

variable [LT α] [DecidableLT α] [BEq α]

/-- Without a broadcaster there are no books, and no message changes that. -/
theorem handle_of_no_broadcaster {handlers : ServerHandlers α}
    (hbroadcaster : handlers.tradeBroadcaster = none) (hbooks : handlers.books = [])
    (call : ClientMessage α) : (handlers.handle call).1 = handlers := by
  have hmissing : ∀ symbol, handlers.findBook symbol = none := by
    intro symbol
    rw [findBook, hbooks]
    rfl
  cases call with
  | placeOrder created confirmed message =>
      cases message with
      | none => rfl
      | some order =>
          rw [handle, handlePlaceOrder_of_no_broadcaster (hmissing order.symbol) hbroadcaster]
  | cancelOrder confirmed request =>
      rw [handle]
      unfold handleCancelOrder
      split
      · rename_i symbol _ _
        rw [hmissing symbol]
      · rfl
  | requestBook symbol => rw [handle, handleBookRequest_handlers]

end ServerHandlers

/-- A text that places an order `validate_order_message` accepts, or no order. -/
def admissible [LT α] [DecidableLT α] (cjson : CJson α) (limits : PriceLimits α)
    (item : WorkItem α) : Bool :=
  match decodeMessage cjson item.message item.frame with
  | .ok (.ok (.placeOrder _ _ (some order))) => (validateOrderMessage limits order).isOk
  | _ => true

section Serve

variable [LT α] [DecidableLT α] [BEq α]

/-- What a text does to the handlers: nothing, or one call. -/
theorem workStep_eq_ok {handlers after : ServerHandlers α} {item : WorkItem α}
    (hstep : workStep cjson (.ok handlers) item = .ok after) :
    after = handlers ∨ ∃ call, decodeMessage cjson item.message item.frame = .ok (.ok call) ∧
      after = (handlers.handle call).1 := by
  unfold workStep ServerHandlers.work at hstep
  cases hdecode : decodeMessage cjson item.message item.frame with
  | error fault =>
      rw [hdecode] at hstep
      cases hstep
  | ok decoded =>
      rw [hdecode] at hstep
      cases decoded with
      | error reason =>
          cases hstep
          exact Or.inl rfl
      | ok call =>
          cases hstep
          exact Or.inr ⟨call, rfl, rfl⟩

/-- What no text destroys holds of the handlers that a run reaches. -/
theorem serve_invariant (invariant : ServerHandlers α → Prop) {handlers after : ServerHandlers α}
    {items : List (WorkItem α)}
    (hstep : ∀ handlers call item, item ∈ items → invariant handlers →
      decodeMessage cjson item.message item.frame = .ok (.ok call) →
        invariant (handlers.handle call).1)
    (hstart : invariant handlers) (hserve : serve cjson handlers items = .ok after) :
    invariant after := by
  refine Transition.run_invariant_of_mem (workStep cjson)
    (fun state => ∀ handlers, state = .ok handlers → invariant handlers) ?_
    (by rintro _ ⟨⟩; exact hstart) after hserve
  intro state item hitem hstate next hnext
  cases state with
  | error fault => cases hnext
  | ok current =>
      have hcurrent := hstate current rfl
      rcases workStep_eq_ok hnext with rfl | ⟨call, hdecode, rfl⟩
      · exact hcurrent
      · exact hstep current call item hitem hcurrent hdecode

/-- In every run in which no text places an invalid order, or in which the server
has no broadcaster and creates no books, every order stored in a book is one that
`validate_order_message` accepts. -/
theorem serve_stored_valid (limits : PriceLimits α) (orders : Nat → Order α)
    (broadcaster : Option TradeBroadcaster) (items : List (WorkItem α))
    (hitems : broadcaster = none ∨ ∀ item ∈ items, admissible cjson limits item = true)
    {handlers : ServerHandlers α}
    (hserve : serve cjson (ServerHandlers.create orders broadcaster) items = .ok handlers) :
    ∀ registered ∈ handlers.books, ∀ order ∈ registered.storedOrders,
      (handlers.orders order).Valid limits := by
  rcases hitems with rfl | hvalid
  · have hidle : handlers.tradeBroadcaster = none ∧ handlers.books = [] := by
      refine serve_invariant (fun handlers => handlers.tradeBroadcaster = none ∧
        handlers.books = []) ?_ ⟨rfl, rfl⟩ hserve
      rintro current call _ _ ⟨hbroadcaster, hbooks⟩ _
      rw [ServerHandlers.handle_of_no_broadcaster hbroadcaster hbooks]
      exact ⟨hbroadcaster, hbooks⟩
    rw [hidle.2]
    exact fun _ hregistered => absurd hregistered List.not_mem_nil
  · have hstored : ServerHandlers.Stored (fun _ order => order.Valid limits) handlers := by
      refine serve_invariant (ServerHandlers.Stored fun _ order => order.Valid limits) ?_
        (.create orders broadcaster) hserve
      intro current call item hitem hcurrent hdecode
      apply hcurrent.handle
      intro created confirmed order newOrder hcall hcreate
      have hadmissible := hvalid item hitem
      rw [admissible, hdecode, hcall] at hadmissible
      rw [Order.Valid, Order.terms_message, Order.create_message hcreate]
      exact hadmissible
    exact fun registered hregistered order horder =>
      hstored.keeps registered hregistered order horder

end Serve

/-- A place message for `AAPL` as a client sends it, with the text of its quantity. -/
def placeText (quantity : String) : CString :=
  ("\x7b\n\t\"type\":\t1,\n\t\"order_id\":\t\"O1\",\n\t\"trader_id\":\t\"T1\",\n" ++
    "\t\"symbol\":\t\"AAPL\",\n\t\"price\":\t10,\n\t\"quantity\":\t" ++ quantity ++
    ",\n\t\"is_buy\":\ttrue\n\x7d").toList

/-- The value of that text. -/
def placeItem (quantity : ℚ) : Json ℚ :=
  .object [("type".toList, .number 1), ("order_id".toList, .string "O1".toList),
    ("trader_id".toList, .string "T1".toList), ("symbol".toList, .string "AAPL".toList),
    ("price".toList, .number 10), ("quantity".toList, .number quantity),
    ("is_buy".toList, .bool true)]

/-- A run in which that text is handled once. -/
def placeRun (broadcaster : Option TradeBroadcaster) (text : String) (quantity : ℚ) :
    Except Fault (ServerHandlers ℚ) :=
  serve (CJson.table [(placeText text, placeItem quantity)] (placeText text))
    (ServerHandlers.create (fun _ => Order.sample "" 0 0 true 0) broadcaster)
    [{ message := placeText text
       frame := { created := 0, confirmed := 0, stack := .zero 0 } }]

/-- A place message for five shares rests as a valid order. -/
theorem serve_stored_valid_five :
    ∃ handlers, placeRun (some ⟨0⟩) "5" 5 = .ok handlers ∧
      handlers.books.map (fun registered => registered.storedOrders) = [[0]] ∧
      ∀ registered ∈ handlers.books, ∀ order ∈ registered.storedOrders,
        (handlers.orders order).Valid exactLimits := by
  have hrests : (placeRun (some ⟨0⟩) "5" 5).map (fun handlers => handlers.books.map
      fun registered => registered.storedOrders) = .ok [[0]] := by decide +kernel
  obtain ⟨handlers, hrun, hbooks⟩ := exists_of_map_eq_ok hrests
  refine ⟨handlers, hrun, hbooks, ?_⟩
  exact serve_stored_valid exactLimits _ _ _ (Or.inr (by decide +kernel)) hrun

/-- A place message for minus five shares rests as well. -/
theorem negative_quantity_rests :
    ∃ handlers, placeRun (some ⟨0⟩) "-5" (-5) = .ok handlers ∧
      ∃ registered ∈ handlers.books, ∃ order ∈ registered.storedOrders,
        (handlers.orders order).quantity = -5 ∧ ¬ (handlers.orders order).Valid exactLimits := by
  have hrests : (placeRun (some ⟨0⟩) "-5" (-5)).map (fun handlers => handlers.books.map
      fun registered => registered.storedOrders.map fun order =>
        ((handlers.orders order).quantity,
          (validateOrderMessage exactLimits (handlers.orders order).message).isOk)) =
      .ok [[(-5, false)]] := by decide +kernel
  obtain ⟨handlers, hrun, hbooks⟩ := exists_of_map_eq_ok hrests
  obtain ⟨registered, hregistered, horders⟩ :=
    List.mem_map.mp (hbooks ▸ List.mem_singleton_self _)
  obtain ⟨order, horder, hfields⟩ := List.mem_map.mp (horders ▸ List.mem_singleton_self _)
  obtain ⟨hquantity, hinvalid⟩ := Prod.mk.inj hfields
  refine ⟨handlers, hrun, registered, hregistered, order, horder, hquantity, fun hvalid => ?_⟩
  exact Bool.false_ne_true (hinvalid.symm.trans hvalid)

end QuantTrading
