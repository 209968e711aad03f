import QuantTrading.Server.ResponseTexts
import QuantTrading.Server.ValidMessages

/-! # Responses that are received

As long as every text that places an order places a valid one, a client can read whatever
the server sends: nothing is cut off, no string needs to be escaped, and what is read is
what was sent. The client is handed the whole text at once and with a NUL behind it, as the
library that carries the texts does not promise: it sends no NUL, and hands over a text longer
than `rx_buffer_size` in pieces.
-/

namespace QuantTrading

open JsonText

/-! ## Valid strings -/

/-- Characters among which there is nothing to escape. -/
theorem isPlain_of_allowed {allowed : Char → Bool} (hquote : allowed '"' = false)
    (hbackslash : allowed '\\' = false)
    (hcontrol : ∀ code < 32, allowed (Char.ofNat code) = false) {c : Char}
    (hc : allowed c = true) : isPlain c = true := by
  by_contra hplain
  have hne : ¬ (c = '"' ∨ c = '\\') := by
    rintro (rfl | rfl)
    · exact absurd (hquote.symm.trans hc) Bool.false_ne_true
    · exact absurd (hbackslash.symm.trans hc) Bool.false_ne_true
  have hcode := hcontrol c.toNat (control_of_not_plain hne hplain)
  rw [Char.ofNat_toNat, hc] at hcode
  cases hcode

theorem plain_of_validateId {maxLength : Nat} {allowed : Char → Bool}
    (hquote : allowed '"' = false) (hbackslash : allowed '\\' = false)
    (hcontrol : ∀ code < 32, allowed (Char.ofNat code) = false) {id : CString}
    (hvalid : validateId maxLength allowed id = true) : id.length < maxLength ∧ PlainText id := by
  unfold validateId at hvalid
  split_ifs at hvalid with hlength
  rw [List.all_eq_true] at hvalid
  exact ⟨not_le.mp fun hle => hlength (Or.inr hle), fun c hc =>
    isPlain_of_allowed hquote hbackslash hcontrol (hvalid c hc)⟩

theorem plain_of_validateOrderId {orderId : CString} (hvalid : validateOrderId orderId = true) :
    orderId.length < 32 ∧ PlainText orderId := by
  unfold validateOrderId at hvalid
  refine plain_of_validateId ?_ ?_ ?_ hvalid <;> decide

theorem plain_of_validateTraderId {traderId : CString}
    (hvalid : validateTraderId traderId = true) : traderId.length < 32 ∧ PlainText traderId := by
  unfold validateTraderId at hvalid
  refine plain_of_validateId ?_ ?_ ?_ hvalid <;> decide

theorem plain_of_validateSymbol {symbol : CString} (hvalid : validateSymbol symbol = true) :
    symbol.length < 15 ∧ PlainText symbol := by
  have hall : ∀ listed ∈ validSymbols, listed.length < 15 ∧ PlainText listed := by decide
  unfold validateSymbol at hvalid
  split_ifs at hvalid
  exact hall symbol (List.contains_iff_mem.mp hvalid)

/-! ## Readable responses -/

/-- The reasons that are sent. -/
def refusals : List String :=
  ["Invalid message format", "Invalid JSON", "Unsupported message type", "Invalid order format",
    "Failed to place order", "Missing order_id or symbol", "Order book not found",
    "Missing is_buy flag", "Order not found or already canceled", "Missing symbol"]

theorem plain_of_mem_refusals :
    ∀ reason ∈ refusals, reason.toList.length ≤ 100 ∧ PlainText reason.toList := by
  decide +kernel

section Responses

variable {α : Type} [LT α] [DecidableLT α] {limits : PriceLimits α} {printer : ResponsePrinter α}

/-- What the programs rely on in cJSON: what is printed for a command or for a snapshot,
with C strings and prices within the limits, is transmitted. -/
structure CJson.Carries (cjson : CJson α) (limits : PriceLimits α) : Prop where
  order : ∀ {cmd : Command α} {traderId : CString}, nul ∉ cmd.symbol → nul ∉ cmd.orderId →
    nul ∉ traderId → validatePrice limits cmd.price = true → IsInt cmd.quantity →
    cjson.Transmits (placeRoot cjson cmd traderId)
  request : ∀ {cmd : Command α}, nul ∉ cmd.symbol → cjson.Transmits (viewRoot cjson cmd)
  snapshot : ∀ {sent : BookSnapshot α}, nul ∉ sent.symbol →
    (∀ level ∈ sent.bids, validateLevel limits level = true) →
    (∀ level ∈ sent.asks, validateLevel limits level = true) →
    cjson.Transmits (snapshotRoot cjson sent)

/-- What the server relies on in `%.2f`: a price within the limits is printed as digits. -/
def ResponsePrinter.PrintsPrices (printer : ResponsePrinter α) (limits : PriceLimits α) : Prop :=
  ∀ price, validatePrice limits price = true → (printer.rounded price).IsFinite

theorem Accepted.readable {cjson : CJson α} (hprinter : printer.PrintsPrices limits)
    {order : OrderMessage α} (haccepted : Accepted limits order) (timestamp : Int) :
    (Response.orderAccepted order timestamp).Readable cjson printer := by
  obtain ⟨horderId, htraderId, hsymbol, hprice, hquantity⟩ :=
    validateOrderMessage_isOk_iff.mp haccepted
  have hid := plain_of_validateOrderId horderId
  have htrader := plain_of_validateTraderId htraderId
  have hname := plain_of_validateSymbol hsymbol
  exact ⟨⟨⟨Nat.le_of_lt_succ hid.1, hid.2⟩, ⟨Nat.le_of_lt_succ htrader.1, htrader.2⟩,
    ⟨hname.1.le, hname.2⟩, hprinter _ hprice⟩, isInt_of_validateQuantity hquantity⟩

theorem BookSnapshot.MadeOf.readable {cjson : CJson α} (hcarries : cjson.Carries limits)
    {sent : BookSnapshot α} (hmade : sent.MadeOf (Accepted limits)) :
    (Response.bookSnapshot sent).Readable cjson printer := by
  have hlevel : ∀ {level : α × Int}, (∃ order, Accepted limits order ∧ ShowsPart level order) →
      validateLevel limits level = true := fun ⟨_, haccepted, hshows⟩ => hshows.valid haccepted
  have hbids := fun level hmem => hlevel (hmade.bids level hmem)
  have hasks := fun level hmem => hlevel (hmade.asks level hmem)
  have hsymbol : nul ∉ sent.symbol := by
    obtain ⟨order, haccepted, htaken⟩ := hmade.symbol
    obtain ⟨_, _, hvalid, _⟩ := validateOrderMessage_isOk_iff.mp haccepted
    rw [htaken]
    exact fun hmem =>
      nul_notMem_of_plain (plain_of_validateSymbol hvalid).2 (List.mem_of_mem_take hmem)
  exact ⟨hcarries.snapshot hsymbol hbids hasks,
    fun level hmem => isInt_of_validateLevel (hbids level hmem),
    fun level hmem => isInt_of_validateLevel (hasks level hmem)⟩

omit [LT α] [DecidableLT α] in
/-- The reason for which a text is not handled. -/
theorem decodeMessage_error {cjson : CJson α} {message : CString} {frame : WorkerFrame α}
    {reason : String} (hdecode : decodeMessage cjson message frame = .ok (.error reason)) :
    reason ∈ refusals := by
  unfold decodeMessage at hdecode
  split at hdecode
  · cases hdecode
    simp [refusals]
  · split at hdecode
    · cases hdecode
      simp [refusals]
    · split at hdecode
      · cases hdecode
        simp [refusals]
      · split at hdecode <;> cases hdecode

end Responses

section Handlers

variable {α : Type} [LT α] [DecidableLT α] [BEq α] {handlers : ServerHandlers α}

/-- The reason for which a call is refused. -/
theorem handle_error {call : ClientMessage α} {reason : String}
    (hmem : .error reason ∈ (handlers.handle call).2) : reason ∈ refusals := by
  have hone : ∀ {given : String}, given ∈ refusals →
      Response.error reason ∈ [(Response.error given : Response α)] → reason ∈ refusals := by
    intro given hgiven hsent
    rwa [Response.error.inj (List.mem_singleton.mp hsent)]
  cases call with
  | placeOrder created confirmed message =>
      rw [ServerHandlers.handle] at hmem
      unfold ServerHandlers.handlePlaceOrder at hmem
      split at hmem
      · exact hone (by simp [refusals]) hmem
      · split at hmem
        · exact hone (by simp [refusals]) hmem
        · split at hmem
          · exact hone (by simp [refusals]) hmem
          · simp at hmem
  | cancelOrder confirmed request =>
      rw [ServerHandlers.handle] at hmem
      unfold ServerHandlers.handleCancelOrder at hmem
      split at hmem
      · split at hmem
        · exact hone (by simp [refusals]) hmem
        · split at hmem
          · exact hone (by simp [refusals]) hmem
          · dsimp only at hmem
            split_ifs at hmem
            · exact hone (by simp [refusals]) hmem
            · simp at hmem
      · exact hone (by simp [refusals]) hmem
  | requestBook symbol =>
      rw [ServerHandlers.handle] at hmem
      unfold ServerHandlers.handleBookRequest at hmem
      split at hmem
      · exact hone (by simp [refusals]) hmem
      · split at hmem
        · exact hone (by simp [refusals]) hmem
        · simp at hmem

/-- The order that is cancelled is stored in the book. -/
theorem exists_order_of_canceled (hstored : handlers.Stored fun _ _ => True)
    {registered : RegisteredBook α} (hregistered : registered ∈ handlers.books)
    {orderId : CString} {isBuy : Bool}
    (hcanceled : ((handlers.engine registered.book).cancelOrder orderId isBuy).1 = 0) :
    ∃ order < handlers.nextAddress, (handlers.orders order).orderId = orderId := by
  rcases (handlers.engine registered.book).cancelOrder_cases orderId isBuy with
    ⟨order, hsearch, -⟩ | ⟨-, hfailed⟩
  · obtain ⟨horder, hid⟩ := (hstored.aligned registered hregistered).searchById_spec hsearch
    have hin : order ∈ registered.storedOrders := by
      cases isBuy with
      | true => exact List.mem_append_left _ horder
      | false => exact List.mem_append_right _ horder
    exact ⟨order, hstored.allocated registered hregistered order hin, hid⟩
  · rw [hfailed] at hcanceled
    cases hcanceled

end Handlers

/-- A cancellation that is confirmed is one of an accepted order. -/
theorem ServerHandlers.MadeOf.canceled_readable {α : Type} [LT α] [DecidableLT α] [BEq α]
    {limits : PriceLimits α} {printer : ResponsePrinter α} {cjson : CJson α}
    {handlers : ServerHandlers α} (hmade : handlers.MadeOf (Accepted limits))
    {call : ClientMessage α} {orderId symbol : CString} {timestamp : Int}
    (hmem : .orderCanceled orderId symbol timestamp ∈ (handlers.handle call).2) :
    (Response.orderCanceled orderId symbol timestamp : Response α).Readable cjson printer := by
  obtain ⟨confirmed, request, rfl⟩ := handle_canceled hmem
  rw [ServerHandlers.handle] at hmem
  obtain ⟨-, -, index, registered, isBuy, hfind, hcanceled⟩ := handleCancelOrder_canceled hmem
  obtain ⟨hindex, hname⟩ := ServerHandlers.findBook_eq_some hfind
  have hregistered := List.mem_of_getElem? hindex
  obtain ⟨order, hlt, hid⟩ := exists_order_of_canceled hmade.stored hregistered hcanceled
  obtain ⟨hvalidId, _⟩ := validateOrderMessage_isOk_iff.mp (hmade.orders order hlt).message
  change validateOrderId (handlers.orders order).orderId = true at hvalidId
  rw [hid] at hvalidId
  obtain ⟨placed, hplaced, htaken⟩ := hmade.symbols registered hregistered
  obtain ⟨_, _, hvalidSymbol, _⟩ := validateOrderMessage_isOk_iff.mp hplaced
  have hplain := plain_of_validateSymbol hvalidSymbol
  rw [hname, List.take_of_length_le hplain.1.le] at htaken
  rw [← htaken] at hplain
  have hidPlain := plain_of_validateOrderId hvalidId
  exact ⟨⟨hidPlain.1.trans (by decide), hplain.1.trans (by decide)⟩, hidPlain.2, hplain.2⟩

section Runs

variable {α : Type} [LinearOrder α] {limits : PriceLimits α} {printer : ResponsePrinter α}
  {cjson : CJson α} {handlers after : ServerHandlers α} {item : WorkItem α}
  {responses : List (Response α)}

/-- Whatever a server of valid orders sends for a call, a client can read. -/
theorem ServerHandlers.MadeOf.handle_readable (hcarries : cjson.Carries limits)
    (hprinter : printer.PrintsPrices limits) (hmade : handlers.MadeOf (Accepted limits))
    {call : ClientMessage α} (hplaces : ServerHandlers.PlacesWith (Accepted limits) call) :
    ∀ response ∈ (handlers.handle call).2, response.Readable cjson printer := by
  intro response hmem
  cases response with
  | orderAccepted order timestamp =>
      obtain ⟨created, confirmed, rfl⟩ := handle_accepted hmem
      exact (hplaces created confirmed order rfl).readable hprinter timestamp
  | orderCanceled orderId symbol timestamp => exact hmade.canceled_readable hmem
  | bookSnapshot sent => exact ((hmade.sends hplaces rfl).2 sent hmem).readable hcarries
  | error reason => exact plain_of_mem_refusals reason (handle_error hmem)

/-- Whatever a server of valid orders sends for a text, a client can read. -/
theorem ServerHandlers.MadeOf.work_readable (hcarries : cjson.Carries limits)
    (hprinter : printer.PrintsPrices limits) (hmade : handlers.MadeOf (Accepted limits))
    (hadmissible : admissible cjson limits item = true)
    (hwork : handlers.work cjson item = .ok (after, responses)) :
    ∀ response ∈ responses, response.Readable cjson printer := by
  unfold ServerHandlers.work at hwork
  cases hdecode : decodeMessage cjson item.message item.frame with
  | error fault =>
      rw [hdecode] at hwork
      cases hwork
  | ok decoded =>
      rw [hdecode] at hwork
      cases decoded with
      | error reason =>
          cases hwork
          intro response hmem
          rw [List.mem_singleton.mp hmem]
          exact plain_of_mem_refusals reason (decodeMessage_error hdecode)
      | ok call =>
          have hresponses : (handlers.handle call).2 = responses :=
            congrArg Prod.snd (Except.ok.inj hwork)
          rw [← hresponses]
          exact hmade.handle_readable hcarries hprinter
            (placesWith_of_admissible hadmissible hdecode)

end Runs

/-! ## Over whole prices -/

/-- The library transmits what the programs print. -/
theorem printedJson_transmits {root : Json Int} (hroot : NoNul root) :
    printedJson.Transmits root where
  parses := printedJson_parse_print hroot
  plain := nul_notMem_printValue nul_notMem_printLong 0 root

theorem noNul_levelItems (entries : List (Int × Int)) :
    NoNulItems (entries.map (levelItem printedJson)) := by
  induction entries with
  | nil => exact trivial
  | cons entry rest ih =>
      exact ⟨⟨by decide, trivial, by decide, trivial, trivial⟩, ih⟩

theorem printedJson_carries (limits : PriceLimits Int) : printedJson.Carries limits where
  order := fun hsymbol horderId htraderId _ _ => printedJson_transmits
    ⟨by decide, trivial, by decide, horderId, by decide, htraderId, by decide, hsymbol,
      by decide, trivial, by decide, trivial, by decide, trivial, trivial⟩
  request := fun hsymbol => printedJson_transmits
    ⟨by decide, trivial, by decide, hsymbol, trivial⟩
  snapshot := fun hsymbol _ _ => printedJson_transmits
    ⟨by decide, hsymbol, by decide, noNul_levelItems _, by decide, noNul_levelItems _, trivial⟩

/-- The limits of the source, in whole numbers. -/
def wholeLimits : PriceLimits Int where
  minPrice := 1
  maxPrice := 1000000

theorem wholePrinter_printsPrices : wholePrinter.PrintsPrices wholeLimits := by
  intro price hvalid
  unfold validatePrice at hvalid
  split_ifs at hvalid with hout
  change ¬ (price < 1 ∨ 1000000 < price) at hout
  have hshort : (Nat.toDigits 10 (price.natAbs * 100)).length ≤ 9 :=
    (Nat.length_toDigits_le_iff (by decide) (by decide)).mpr (by omega)
  have hbound : (Nat.toDigits 10 (price.natAbs * 100)).length ≤ 311 := hshort.trans (by decide)
  unfold wholePrinter
  dsimp only
  rw [dif_pos hbound]
  trivial

/-! ## Runs -/

section Runs

variable {α : Type} [LinearOrder α] {limits : PriceLimits α} {printer : ResponsePrinter α}
  {cjson : CJson α} {handlers after : ServerHandlers α} {item : WorkItem α}
  {responses : List (Response α)}

/-- When no text of a run places an invalid order, a client does with each response of the
server what the response says, whatever state it is in and whatever follows the NUL behind
the text in memory. -/
theorem responses_are_received {ofNumeral : CString → α} (hreads : cjson.ReadsJson ofNumeral)
    (hcarries : cjson.Carries limits) (hprinter : printer.PrintsPrices limits)
    (orders : Nat → Order α) (broadcaster : Option TradeBroadcaster) (items : List (WorkItem α))
    (hitems : ∀ other ∈ item :: items, admissible cjson limits other = true)
    (hserve : serve cjson (ServerHandlers.create orders broadcaster) items = .ok handlers)
    (hwork : handlers.work cjson item = .ok (after, responses)) :
    ∀ response ∈ responses, ∀ (app : ClientApp α) (behind : List Char) (len : Nat)
      (stack : TradeBuffer α),
      app.handleMessage cjson (responseText cjson printer response ++ nul :: behind) len stack =
        .ok (app.told ofNumeral printer response) := by
  intro response hmem app behind len stack
  obtain ⟨hitem, hrun⟩ := List.forall_mem_cons.mp hitems
  have hmade := serve_madeOf hrun hserve
  exact handleMessage_responseText hreads
    (hmade.work_readable hcarries hprinter hitem hwork response hmem) app behind len stack

end Runs

/-- The confirmation and the snapshot for an order that meets a bid. -/
theorem responses_are_received_crossing :
    ∃ handlers after responses,
      serve printedJson wholeStart [wholeItem (printedJson.print (crossingRoot "B1" 7 true))] =
        .ok handlers ∧
      handlers.work printedJson (wholeItem (printedJson.print (crossingRoot "S1" 5 false))) =
        .ok (after, responses) ∧
      responses.length = 2 ∧
      ∀ response ∈ responses, ∀ (app : ClientApp Int) (behind : List Char) (len : Nat)
        (stack : TradeBuffer Int),
        app.handleMessage printedJson
            (responseText printedJson wholePrinter response ++ nul :: behind) len stack =
          .ok (app.told CNumerals.readInteger wholePrinter response) := by
  have hrun : (serve printedJson wholeStart
      [wholeItem (printedJson.print (crossingRoot "B1" 7 true))]).map (fun handlers =>
      (handlers.work printedJson
        (wholeItem (printedJson.print (crossingRoot "S1" 5 false)))).map fun result =>
          result.2.length) = .ok (.ok 2) := by decide +kernel
  obtain ⟨handlers, hserve, hrest⟩ := exists_of_map_eq_ok hrun
  obtain ⟨⟨after, responses⟩, hwork, hlength⟩ := exists_of_map_eq_ok hrest
  refine ⟨handlers, after, responses, hserve, hwork, hlength, ?_⟩
  exact responses_are_received printedJson_readsJson (printedJson_carries wholeLimits)
    wholePrinter_printsPrices _ _ _ (by decide +kernel) hserve hwork

end QuantTrading
