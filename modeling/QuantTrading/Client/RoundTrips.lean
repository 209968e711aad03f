import QuantTrading.Client.CommandDelivery
import QuantTrading.Client.CommandLine
import QuantTrading.Server.ReceivedResponses

/-! # From the command line and back

A line is typed at a client, its command is sent to the server, a worker handles the text,
and the client prints what it is told. The server has handled any texts before, and the
client is in any state when a response arrives. Every text arrives whole and with a NUL
behind it, which the transport is relied on for.
-/

namespace QuantTrading

open JsonText

/-! ## What is typed -/

/-- The order that a BUY or SELL command places. -/
def Command.orderMessage {α : Type} (cmd : Command α) (traderId : CString) : OrderMessage α where
  symbol := cmd.symbol
  orderId := cmd.orderId
  traderId := traderId
  price := cmd.price
  quantity := cmd.quantity
  isBuy := decide (cmd.type = .buy)

/-- An id of a prefix and a number. -/
theorem validateId_append {maxLength : Nat} {allowed : Char → Bool} {start digits : CString}
    (hstart : start.all allowed = true) (hdigits : ∀ c ∈ digits, allowed c = true)
    (hne : start ≠ []) (hlength : (start ++ digits).length < maxLength) :
    validateId maxLength allowed (start ++ digits) = true := by
  unfold validateId
  rw [if_neg, List.all_eq_true]
  · intro c hc
    exact (List.mem_append.mp hc).elim (List.all_eq_true.mp hstart c) (hdigits c)
  · rintro (hempty | hle)
    · exact hne (List.append_eq_nil_iff.mp (List.length_eq_zero_iff.mp hempty)).1
    · exact absurd hlength (Nat.not_lt.mpr hle)

theorem isAlphanum_of_isDigit {c : Char} (hc : c.isDigit = true) : c.isAlphanum = true := by
  rw [Char.isAlphanum, hc, Bool.or_true]

/-- The ids that a client makes are valid. -/
theorem validateOrderId_generateOrderId (now : TimeT) :
    validateOrderId (generateOrderId now 32) = true := by
  have hlength := length_generateOrderId_lt now
  rw [generateOrderId_eq] at hlength ⊢
  refine validateId_append (by decide) ?_ (by decide) (hlength.trans (by decide))
  intro c hc
  rcases mem_printLong hc with rfl | hdigit
  · decide
  · rw [isAlphanum_of_isDigit hdigit]
    rfl

theorem validateTraderId_traderIdOf {pid : Int} (hpositive : 0 ≤ pid) (hpid : IsInt pid) :
    validateTraderId (traderIdOf pid) = true := by
  obtain ⟨heq, hlength⟩ := traderIdOf_eq hpid
  rw [heq] at hlength ⊢
  refine validateId_append (by decide) ?_ (by decide) (hlength.trans (by decide))
  intro c hc
  rw [printLong_eq, decide_eq_false (Int.not_lt.mpr hpositive)] at hc
  rw [isAlphanum_of_isDigit (isDigit_of_mem_toDigits c hc)]
  rfl

section Typed

variable {α : Type} [LT α] [DecidableLT α] {limits : PriceLimits α} {cjson : CJson α}
  {cmd : Command α} {now : TimeT} {traderId : CString}

theorem Command.Parsed.accepted (hparsed : cmd.Parsed limits now)
    (htype : cmd.type = .buy ∨ cmd.type = .sell) (hsymbol : validateSymbol cmd.symbol = true)
    (htraderId : validateTraderId traderId = true) :
    Accepted limits (cmd.orderMessage traderId) := by
  obtain ⟨hid, hprice, hquantity⟩ := hparsed.terms htype
  have horderId := validateOrderId_generateOrderId now
  rw [← hid] at horderId
  exact validateOrderMessage_isOk_iff.mpr ⟨horderId, htraderId, hsymbol, hprice, hquantity⟩

/-- The text of a BUY or SELL command is decoded to the order of the command, whatever the
struct on the worker's stack held. -/
theorem Command.Parsed.decode (hcarries : cjson.Carries limits) (hparsed : cmd.Parsed limits now)
    (htype : cmd.type = .buy ∨ cmd.type = .sell) (hsymbol : validateSymbol cmd.symbol = true)
    (htraderId : validateTraderId traderId = true) (hshort : traderId.length < 31)
    (frame : WorkerFrame α) :
    nul ∉ cjson.print (placeRoot cjson cmd traderId) ∧
      decodeMessage cjson (cjson.print (placeRoot cjson cmd traderId)) frame =
        .ok (.ok (.placeOrder frame.created frame.confirmed
          (some (cmd.orderMessage traderId)))) := by
  obtain ⟨hid, hprice, hquantity⟩ := hparsed.terms htype
  have hint := isInt_of_validateQuantity hquantity
  have hidShort : cmd.orderId.length < 31 := hid ▸ length_generateOrderId_lt now
  have hidPlain : nul ∉ cmd.orderId := hid ▸ generateOrderId_plain now
  have htrader := plain_of_validateTraderId htraderId
  have hname := plain_of_validateSymbol hsymbol
  have htraderPlain := nul_notMem_of_plain htrader.2
  have htransmits := hcarries.order hparsed.symbol_plain hidPlain htraderPlain hprice hint
  have hrequest := placeRequest_placeRoot htransmits.parses hparsed.symbol_plain hidPlain
    htraderPlain frame.stack
  rw [if_pos ⟨Or.inl hname.1, Or.inl hidShort, Or.inl hshort⟩, toInt_ofInt_of_isInt hint,
    List.take_of_length_le hname.1.le, List.take_of_length_le hidShort.le,
    List.take_of_length_le hshort.le] at hrequest
  refine ⟨htransmits.plain, ?_⟩
  rw [decodeMessage_placeRoot htransmits.parses frame, hrequest]
  rfl

end Typed

/-! ## What is placed -/

section Placed

variable {α : Type} [LT α] [DecidableLT α] [BEq α] {limits : PriceLimits α}
  {cjson : CJson α} {handlers : ServerHandlers α}

end Placed

/-! ## Over whole prices -/

def wholeReaders : NumeralReaders Int where
  atof := CNumerals.readInteger
  atoi := CNumerals.readInteger

/-- A connected client that has just been started. -/
def connectedClient : ClientProcess Int where
  running := true
  connected := true
  app :=
    { tradeHistory := { trades := [], tradeCount := 0, maxTrades := 1000 }
      marketMonitor := []
      isViewRequested := false
      notices := [] }

/-- A reading of the clock. -/
def firstSecond : TimeT := ⟨1, by decide, by decide⟩

/-- The command of a line that is typed in the first second. -/
def typedBuy : Command Int :=
  parseCommand wholeReaders wholeLimits firstSecond "BUY AAPL 10 7".toList

/-- A server that keeps one ask. -/
theorem exists_serve_ask : ∃ handlers, serve printedJson wholeStart
    [wholeItem (printedJson.print (crossingRoot "S1" 5 false))] = .ok handlers := by
  have hrun : (serve printedJson wholeStart
      [wholeItem (printedJson.print (crossingRoot "S1" 5 false))]).map (fun handlers =>
        handlers.books.length) = .ok 1 := by decide +kernel
  obtain ⟨handlers, hserve, -⟩ := exists_of_map_eq_ok hrun
  exact ⟨handlers, hserve⟩

/-! ## Round trips -/

section Orders

variable {α : Type} [LinearOrder α] [Zero α] {cjson : CJson α} {ofNumeral : CString → α}
  {readers : NumeralReaders α} {limits : PriceLimits α} {printer : ResponsePrinter α}

end Orders

section Views

variable {α : Type} [LinearOrder α] [Zero α] {cjson : CJson α} {ofNumeral : CString → α}
  {readers : NumeralReaders α} {limits : PriceLimits α} {printer : ResponsePrinter α}

/-- A VIEW command changes nothing at the server. It is answered with the book of its
symbol, which the client, given the whole text with a NUL behind it, shows and then waits no
longer, or with an error, after which the client still waits for a book. -/
theorem typed_view_round_trip (hreads : cjson.ReadsJson ofNumeral)
    (hcarries : cjson.Carries limits) (hprinter : printer.PrintsPrices limits)
    (orders : Nat → Order α) (broadcaster : Option TradeBroadcaster) (items : List (WorkItem α))
    (hitems : ∀ item ∈ items, admissible cjson limits item = true)
    {handlers : ServerHandlers α}
    (hserve : serve cjson (ServerHandlers.create orders broadcaster) items = .ok handlers)
    {process sender : ClientProcess α} {line message traderId : CString} {now : TimeT}
    (hline : nul ∉ line)
    (hsent : process.inputThread cjson readers limits line now traderId = (sender, some message))
    (htype : (parseCommand readers limits now line).type = .view) (frame : WorkerFrame α) :
    let symbol := (parseCommand readers limits now line).symbol
    ∃ response, nul ∉ message ∧ sender.app = { process.app with isViewRequested := true } ∧
      handlers.work cjson { message := message, frame := frame } = .ok (handlers, [response]) ∧
      ∀ (app : ClientApp α) (behind : List Char) (len : Nat) (stack : TradeBuffer α),
        app.isViewRequested = true →
        app.handleMessage cjson (responseText cjson printer response ++ nul :: behind) len stack =
          .ok (match handlers.findBook symbol with
            | none => app
            | some (_, registered) =>
                let sent := ServerHandlers.snapshot handlers.orders symbol registered.book
                { app.print (.orderBook symbol sent.bids.reverse sent.asks) with
                  isViewRequested := false }) := by
  intro symbol
  have hparsed : (parseCommand readers limits now line).Parsed limits now :=
    parseCommand_parsed hline
  obtain ⟨hformat, rfl⟩ := ClientProcess.inputThread_sends hsent
  obtain rfl : message = cjson.print (viewRoot cjson (parseCommand readers limits now line)) := by
    rw [formatCommandAsJson, commandRoot, htype] at hformat
    exact (Option.some.inj hformat).symm
  have htransmits := hcarries.request hparsed.symbol_plain
  have hdecode := decodeMessage_viewRoot htransmits.parses frame
  have hmade := serve_madeOf hitems hserve
  have hadmissible : admissible cjson limits
      { message := cjson.print (viewRoot cjson (parseCommand readers limits now line))
        frame := frame } = true := by
    rw [admissible, hdecode]
  have hwork : handlers.work cjson
      { message := cjson.print (viewRoot cjson (parseCommand readers limits now line))
        frame := frame } = .ok (handlers.handleBookRequest (some symbol)) := by
    rw [ServerHandlers.work, hdecode]
    rfl
  have hname : symbol.take 15 = symbol := List.take_of_length_le hparsed.symbol_fits
  cases hfound : handlers.findBook symbol with
  | none =>
      have hanswer : handlers.handleBookRequest (some symbol) =
          (handlers, [.error "Order book not found"]) := by
        rw [ServerHandlers.handleBookRequest, hfound]
      rw [hanswer] at hwork
      have hreadable := hmade.work_readable hcarries hprinter hadmissible hwork _
        (List.mem_singleton_self _)
      refine ⟨_, htransmits.plain, by rw [if_pos htype]; rfl, hwork, ?_⟩
      exact fun app behind len stack _ =>
        handleMessage_responseText hreads hreadable app behind len stack
  | some entry =>
      obtain ⟨index, registered⟩ := entry
      have hanswer : handlers.handleBookRequest (some symbol) =
          (handlers, [.bookSnapshot
            (ServerHandlers.snapshot handlers.orders symbol registered.book)]) := by
        rw [ServerHandlers.handleBookRequest, hfound]
      rw [hanswer] at hwork
      have hreadable := hmade.work_readable hcarries hprinter hadmissible hwork _
        (List.mem_singleton_self _)
      have hmem := List.mem_of_getElem? (ServerHandlers.findBook_eq_some hfound).1
      have hshownSymbol : (ServerHandlers.snapshot handlers.orders symbol registered.book).symbol =
          symbol :=
        (congrArg BookSnapshot.symbol
          (snapshot_eq (hmade.stored.aligned registered hmem) symbol)).trans hname
      refine ⟨_, htransmits.plain, by rw [if_pos htype]; rfl, hwork, ?_⟩
      intro app behind len stack hview
      have hshown := handleMessage_responseText hreads hreadable app behind len stack
      rw [ClientApp.told, if_pos hview, hshownSymbol] at hshown
      exact hshown

end Views

/-- The ask that is left in the book is shown. -/
theorem typed_view_round_trip_ask :
    ∃ handlers sender message response,
      serve printedJson wholeStart [wholeItem (printedJson.print (crossingRoot "S1" 5 false))] =
        .ok handlers ∧
      connectedClient.inputThread printedJson wholeReaders wholeLimits "VIEW AAPL".toList
        firstSecond (traderIdOf 7) = (sender, some message) ∧
      handlers.work printedJson (wholeItem message) = .ok (handlers, [response]) ∧
      sender.app.isViewRequested = true := by
  obtain ⟨handlers, hserve⟩ := exists_serve_ask
  have hsome : (connectedClient.inputThread printedJson wholeReaders wholeLimits
      "VIEW AAPL".toList firstSecond (traderIdOf 7)).2.isSome = true := by
    decide +kernel
  obtain ⟨message, hmessage⟩ := Option.isSome_iff_exists.mp hsome
  obtain ⟨response, -, hrequested, hwork, -⟩ := typed_view_round_trip printedJson_readsJson
    (printedJson_carries wholeLimits) wholePrinter_printsPrices _ _ _ (by decide +kernel) hserve
    (by decide +kernel) (Prod.ext rfl hmessage) (by decide +kernel) (wholeItem message).frame
  exact ⟨handlers, _, message, response, hserve, Prod.ext rfl hmessage, hwork,
    congrArg ClientApp.isViewRequested hrequested⟩

end QuantTrading
