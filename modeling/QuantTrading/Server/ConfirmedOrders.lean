import QuantTrading.Server.Admission
import QuantTrading.Server.Confirmations

/-! # When confirmations can be read back

A place confirmation holds the strings of the order after they were cut off to the size of
`OrderMessage`, a cancel confirmation the strings of the request, which name a stored
order. Either is a JSON text with the fields of the message exactly when no character of
them means something in a JSON string.
-/

namespace QuantTrading

open JsonText

variable {α : Type} {cjson : CJson α} {ofNumeral : CString → α}

/-! ## The text of a confirmation -/

section Texts

/-- What is parsed from a place confirmation. -/
theorem parse_acceptedText_iff (hreads : cjson.ReadsJson ofNumeral)
    (printer : ResponsePrinter α) (given : OrderMessage α) (hmin : intMin ≤ given.quantity)
    (hmax : given.quantity ≤ intMax) (price : α) (timestamp : Int) :
    JsonText.parse ofNumeral (acceptedText printer given.cut timestamp) =
        some (acceptedRoot cjson given price (printer.localtime timestamp).text) ↔
      Printable printer given ∧ price = ofNumeral (printer.rounded given.price).print := by
  let details := detailFields ofNumeral printer given price (cjson.ofInt given.quantity)
  have hne : details ≠ [] := List.cons_ne_nil _ _
  have hparse := parse_confirmation_iff printer .orderAccepted "Trade Details" (by decide) hne
    (show details.length ≤ 6 from le_rfl) (detailFields_exact printer given price _)
    (cjson.ofInt ServerMessageType.orderAccepted.code) timestamp
  have hside : PlainText (sideText given.isBuy) := by cases given.isBuy <;> decide
  have hcode := hreads.integer _ (ServerMessageType.code_isInt .orderAccepted).1
    (ServerMessageType.code_isInt .orderAccepted).2
  have hquantity := hreads.integer _ hmin hmax
  refine hparse.trans ?_
  simp only [details, detailFields, List.forall_mem_cons, FormField.whole, FormField.string,
    FormField.number]
  constructor
  · rintro ⟨-, -, horderId, htraderId, hsymbol, ⟨hfinite, hprice⟩, -⟩
    exact ⟨⟨horderId, htraderId, hsymbol, hfinite⟩, hprice⟩
  · rintro ⟨⟨horderId, htraderId, hsymbol, hfinite⟩, hprice⟩
    exact ⟨hcode.symm, hside, horderId, htraderId, hsymbol, ⟨hfinite, hprice⟩,
      ⟨trivial, hquantity.symm⟩, fun _ hmem => absurd hmem List.not_mem_nil⟩

/-- The client prints the fields of a place confirmation. -/
theorem handleText_accepted (hreads : cjson.ReadsJson ofNumeral) {text : CString}
    (hlength : text.length ≤ 1000) {given : OrderMessage α} {price : α} {timestamp : CString}
    (hparse : JsonText.parse ofNumeral text = some (acceptedRoot cjson given price timestamp))
    (hmin : intMin ≤ given.quantity) (hmax : given.quantity ≤ intMax) (app : ClientApp α)
    (stack : TradeBuffer α) :
    app.handleText cjson text stack =
      .ok (app.print (.orderPlaced given.orderId given.symbol (sideText given.isBuy) price
        given.quantity)) := by
  have hroot := hreads.reads text _ hlength hparse
  have hcode := cjson.toInt_ofInt ServerMessageType.orderAccepted.code
    (ServerMessageType.code_isInt .orderAccepted).1
    (ServerMessageType.code_isInt .orderAccepted).2
  have hbase : parseBaseMessage cjson text = some ServerMessageType.orderAccepted.code := by
    rw [parseBaseMessage, hroot, ← hcode]
    rfl
  have haccepted : app.orderAccepted cjson (acceptedRoot cjson given price timestamp) =
      .ok (app.print (.orderPlaced given.orderId given.symbol (sideText given.isBuy) price
        (cjson.toInt (cjson.ofInt given.quantity)))) := rfl
  rw [ClientApp.handleText, hbase, hroot]
  change app.orderAccepted cjson (acceptedRoot cjson given price timestamp) = _
  rw [haccepted, cjson.toInt_ofInt _ hmin hmax]

/-- The confirmation of a cancellation. -/
theorem confirmsCancel_iff (hreads : cjson.ReadsJson ofNumeral) (printer : ResponsePrinter α)
    {orderId symbol : CString} (horderId : orderId.length < maxIdLength)
    (hsymbol : symbol.length < maxSymbolLength) (timestamp : Int) :
    ConfirmsCancel cjson ofNumeral printer orderId symbol timestamp ↔
      PlainText orderId ∧ PlainText symbol := by
  have hfits : (canceledText printer orderId symbol timestamp).length < responseSize :=
    (length_canceledText_le printer horderId hsymbol timestamp).trans_lt (by decide)
  have hresponse : canceledResponse printer orderId symbol timestamp =
      canceledText printer orderId symbol timestamp := snprintf_of_fits hfits
  let details : List (FormField α) :=
    [.whole "Order ID" 6 orderId, .whole "Symbol" 8 symbol]
  have hdetails : ∀ field ∈ details, field.Exact ofNumeral 1 := by
    simp only [details, List.forall_mem_cons]
    exact ⟨FormField.whole_exact (by decide) _ _, FormField.whole_exact (by decide) _ _,
      fun _ hmem => absurd hmem List.not_mem_nil⟩
  have hne : details ≠ [] := List.cons_ne_nil _ _
  have hparse := parse_confirmation_iff printer .orderCanceled "Cancellation Details" (by decide)
    hne (show details.length ≤ 6 from Nat.le_add_left 2 4) hdetails
    (cjson.ofInt ServerMessageType.orderCanceled.code) timestamp
  have hcode := hreads.integer _ (ServerMessageType.code_isInt .orderCanceled).1
    (ServerMessageType.code_isInt .orderCanceled).2
  have hread : JsonText.parse ofNumeral (canceledResponse printer orderId symbol timestamp) =
      some (canceledRoot cjson orderId symbol (printer.localtime timestamp).text) ↔
        PlainText orderId ∧ PlainText symbol := by
    rw [hresponse]
    refine hparse.trans ?_
    simp only [details, List.forall_mem_cons, FormField.whole]
    constructor
    · rintro ⟨-, hid, hsymbol, -⟩
      exact ⟨hid, hsymbol⟩
    · rintro ⟨hid, hsymbol⟩
      exact ⟨hcode.symm, hid, hsymbol, fun _ hmem => absurd hmem List.not_mem_nil⟩
  exact ⟨fun hconfirms => hread.mp hconfirms.reads, fun hplain => ⟨hfits, hread.mpr hplain⟩⟩

end Texts

/-! ## What is confirmed -/

section Handlers

variable [LT α] [DecidableLT α] [BEq α] {handlers : ServerHandlers α}

/-- What is confirmed of a cancel message is its id and its symbol, and an order with the id
is in the book of the symbol. -/
theorem handleCancelOrder_canceled {confirmed timestamp : Int} {request : CancelRequest}
    {orderId symbol : CString} (hmem : Response.orderCanceled orderId symbol timestamp ∈
      (handlers.handleCancelOrder confirmed request).2) :
    request.orderId = some orderId ∧ request.symbol = some symbol ∧
      ∃ index registered isBuy, handlers.findBook symbol = some (index, registered) ∧
        ((handlers.engine registered.book).cancelOrder orderId isBuy).1 = 0 := by
  unfold ServerHandlers.handleCancelOrder at hmem
  split at hmem
  next requestId requestSymbol hid hsymbol =>
    split at hmem
    · simp at hmem
    next index registered hfind =>
      split at hmem
      · simp at hmem
      next isBuy hisBuy =>
        dsimp only at hmem
        split_ifs at hmem with hcanceled
        · simp at hmem
        · simp only [List.mem_singleton, Response.orderCanceled.injEq] at hmem
          obtain ⟨rfl, rfl, -⟩ := hmem
          exact ⟨hid, hsymbol, index, registered, _, hfind, not_not.mp hcanceled⟩
  · simp at hmem

/-- Only a place message is confirmed as placed, with its order. -/
theorem handle_accepted {call : ClientMessage α} {order : OrderMessage α} {timestamp : Int}
    (hmem : Response.orderAccepted order timestamp ∈ (handlers.handle call).2) :
    ∃ created confirmed, call = .placeOrder created confirmed (some order) := by
  cases call with
  | placeOrder created confirmed message =>
      rcases handlers.handlePlaceOrder_responses created confirmed message with
        ⟨reason, hsent⟩ | ⟨placed, sent, rfl, hsent⟩
      · rw [ServerHandlers.handle, hsent] at hmem
        simp at hmem
      · rw [ServerHandlers.handle, hsent] at hmem
        have hsame : order = placed ∧ timestamp = confirmed := by simpa using hmem
        exact ⟨created, confirmed, by rw [hsame.1]⟩
  | cancelOrder confirmed request =>
      rcases handlers.handleCancelOrder_responses confirmed request with
        ⟨reason, hsent⟩ | ⟨orderId, symbol, hsent⟩
      all_goals
        rw [ServerHandlers.handle, hsent] at hmem
        simp at hmem
  | requestBook symbol =>
      rcases handlers.handleBookRequest_responses symbol with ⟨reason, hsent⟩ | ⟨sent, hsent⟩
      all_goals
        rw [ServerHandlers.handle, hsent] at hmem
        simp at hmem

/-- Only a cancel message is confirmed as cancelled. -/
theorem handle_canceled {call : ClientMessage α} {orderId symbol : CString} {timestamp : Int}
    (hmem : Response.orderCanceled orderId symbol timestamp ∈ (handlers.handle call).2) :
    ∃ confirmed request, call = .cancelOrder confirmed request := by
  cases call with
  | cancelOrder confirmed request => exact ⟨confirmed, request, rfl⟩
  | placeOrder created confirmed message =>
      rcases handlers.handlePlaceOrder_responses created confirmed message with
        ⟨reason, hsent⟩ | ⟨placed, sent, -, hsent⟩
      all_goals
        rw [ServerHandlers.handle, hsent] at hmem
        simp at hmem
  | requestBook symbol =>
      rcases handlers.handleBookRequest_responses symbol with ⟨reason, hsent⟩ | ⟨sent, hsent⟩
      all_goals
        rw [ServerHandlers.handle, hsent] at hmem
        simp at hmem

end Handlers

/-! ## Over whole prices -/

/-- The digits of a number stand for it. -/
theorem digitsValue_toDigits (n : Nat) : CNumerals.digitsValue 10 (Nat.toDigits 10 n) = n := by
  have hdigits : ∀ (digits : CString) (value : Nat), (∀ c ∈ digits, c.isDigit = true) →
      digits.foldl (fun value c => 10 * value + CNumerals.digitValue c) value =
        digits.foldl (fun value c => 10 * value + (c.toNat - '0'.toNat)) value := by
    intro digits
    induction digits with
    | nil => exact fun _ _ => rfl
    | cons c rest ih =>
        intro value hall
        obtain ⟨hc, hrest⟩ := List.forall_mem_cons.mp hall
        rw [List.foldl_cons, List.foldl_cons, CNumerals.digitValue, if_pos hc]
        exact ih _ hrest
  rw [CNumerals.digitsValue, hdigits _ _ isDigit_of_mem_toDigits, ← Nat.ofDigitChars_eq_foldl,
    Nat.ofDigitChars_ten_toDigits]

/-- A printed number is read back. -/
theorem readInteger_printLong (value : Int) : CNumerals.readInteger (printLong value) = value := by
  have hread : ∀ (sign : CNumerals.Sign) (n : Nat),
      CNumerals.readInteger (sign.text ++ Nat.toDigits 10 n) = sign.apply (n : Int) := by
    intro sign n
    rw [CNumerals.readInteger_append sign isDigit_of_mem_toDigits, digitsValue_toDigits]
  cases value with
  | ofNat n => exact hread .absent n
  | negSucc n => exact hread .minus (n + 1)

/-- Whole prices that are not too large, in one moment of one day. -/
def wholePrinter : ResponsePrinter Int where
  rounded price :=
    if hbound : (Nat.toDigits 10 (price.natAbs * 100)).length ≤ 311 then
      .finite (decide (price < 0)) (price.natAbs * 100) hbound
    else .infinite (decide (price < 0))
  localtime _ := sampleTimestamp

def wholeItem (message : CString) : WorkItem Int where
  message := message
  frame := { created := 0, confirmed := 0, stack := .zero 0 }

def wholeStart : ServerHandlers Int :=
  ServerHandlers.create (fun _ => Order.sample "" 0 0 true 0) (some ⟨0⟩)

section Runs

variable [LT α] [DecidableLT α] [BEq α]

end Runs

end QuantTrading
