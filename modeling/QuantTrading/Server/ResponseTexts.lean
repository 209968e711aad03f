import QuantTrading.Protocol.Serialization
import QuantTrading.Server.WholeNumbers

/-! # The texts of the responses

What is written to a client for each response, and what `handle_message` of the client
does with it: a confirmation is printed, a snapshot is shown when a VIEW command waits for
it, and the rest is only logged.
-/

namespace QuantTrading

open JsonText

/-! ## Texts -/

/-- The format of `send_error_response`. -/
def errorText (reason : String) : CString :=
  "\x7b\"type\": ".toList ++ (printLong ServerMessageType.error.code ++
    (", \"status\": \"failed\", \"reason\": \"".toList ++ (reason.toList ++ "\"\x7d".toList)))

/-- The `response` of `send_error_response`. -/
def errorResponse (reason : String) : CString :=
  snprintf responseSize (errorText reason)

/-- What is written for a response. -/
def responseText {α : Type} (cjson : CJson α) (printer : ResponsePrinter α) :
    Response α → CString
  | .orderAccepted order timestamp => acceptedResponse printer order timestamp
  | .orderCanceled orderId symbol timestamp => canceledResponse printer orderId symbol timestamp
  | .bookSnapshot sent => cjson.print (snapshotRoot cjson sent)
  | .error reason => errorResponse reason

/-! ## Errors -/

section Errors

variable {α : Type} {ofNumeral : CString → α}

/-- The format as three members. -/
theorem errorText_eq (reason : String) :
    errorText reason = '\x7b' ::
      (Line.print 0 ⟨"type", 1, printLong ServerMessageType.error.code⟩ ++
        ',' :: (Line.print 1 ⟨"status", 1, quoted "failed".toList⟩ ++
          ',' :: (Line.print 1 ⟨"reason", 1, quoted reason.toList⟩ ++ ['\x7d']))) := by
  have hstart : "\x7b\"type\": ".toList =
      '\x7b' :: '"' :: ("type".toList ++ ['"', ':', ' ']) := by decide +kernel
  have hmiddle : ", \"status\": \"failed\", \"reason\": \"".toList =
      ',' :: ' ' :: '"' :: ("status".toList ++ '"' :: ':' :: ' ' :: '"' ::
        ("failed".toList ++ '"' :: ',' :: ' ' :: '"' ::
          ("reason".toList ++ ['"', ':', ' ', '"']))) := by decide +kernel
  have hend : "\"\x7d".toList = ['"', '\x7d'] := by decide +kernel
  unfold errorText
  rw [hstart, hmiddle, hend]
  simp only [Line.print, quoted, List.replicate, List.cons_append, List.nil_append,
    List.append_assoc]

/-- A string in quotes, whatever follows. -/
theorem readValue_quoted {text : CString} (hplain : PlainText text) (fuel : Nat)
    (rest : CString) :
    readValue ofNumeral (fuel + 1) (quoted text ++ rest) = some (.string text, rest) := by
  have hquoted : quoted text ++ rest = '"' :: (text ++ '"' :: rest) := by simp [quoted]
  rw [hquoted, readValue, readString_of_plain hplain]
  rfl

variable (ofNumeral) in
/-- The members of an error. -/
theorem readMembers_errorText {reason : String} (hreason : PlainText reason.toList)
    (fuel : Nat) :
    readMembers ofNumeral (fuel + 8)
      (skipBlanks (Line.print 0 ⟨"type", 1, printLong ServerMessageType.error.code⟩ ++
        ',' :: (Line.print 1 ⟨"status", 1, quoted "failed".toList⟩ ++
          ',' :: (Line.print 1 ⟨"reason", 1, quoted reason.toList⟩ ++ ['\x7d'])))) =
      some ([("type".toList, .number (ofNumeral (printLong ServerMessageType.error.code))),
        ("status".toList, .string "failed".toList), ("reason".toList, .string reason.toList)],
        []) := by
  have hname : PlainText "type".toList ∧ PlainText "status".toList ∧ PlainText "reason".toList := by
    decide
  have hread : Reads ofNumeral (printLong ServerMessageType.error.code)
      (.number (ofNumeral (printLong ServerMessageType.error.code))) := reads_printLong _
  have hcode : Visible (printLong ServerMessageType.error.code) := by
    obtain ⟨c, more, hstart, hblank, _⟩ := hread.starts
    exact ⟨c, more, hstart, hblank⟩
  have hquoted : ∀ text, Visible (quoted text) := fun text => ⟨'"', _, rfl, by decide⟩
  have hends : ∀ rest, EndsValue (',' :: rest) := by
    rintro rest c ⟨⟩
    exact Or.inl rfl
  have hlength : (printLong ServerMessageType.error.code).length ≤ fuel + 7 :=
    le_add_left (by decide)
  have hnumber := fun rest => hread.reads (fuel + 7) (',' :: rest) hlength (hends rest)
  have hreasonRead : readMembers ofNumeral (fuel + 6)
      (skipBlanks (Line.print 1 ⟨"reason", 1, quoted reason.toList⟩ ++ ['\x7d'])) =
      some ([("reason".toList, .string reason.toList)], []) := by
    rw [readMembers_line hname.2.2 (hquoted _), readValue_quoted hreason]
    rfl
  have hstatus : readMembers ofNumeral (fuel + 7)
      (skipBlanks (Line.print 1 ⟨"status", 1, quoted "failed".toList⟩ ++
        ',' :: (Line.print 1 ⟨"reason", 1, quoted reason.toList⟩ ++ ['\x7d']))) =
      some ([("status".toList, .string "failed".toList),
        ("reason".toList, .string reason.toList)], []) := by
    rw [readMembers_line hname.2.1 (hquoted _), readValue_quoted (by decide)]
    dsimp only [Option.bind_some]
    rw [afterEntry_comma, hreasonRead]
    rfl
  rw [readMembers_line hname.1 hcode, hnumber]
  dsimp only [Option.bind_some]
  rw [afterEntry_comma, hstatus]
  rfl

/-- The value of an error. -/
theorem parse_errorText {reason : String} (hreason : PlainText reason.toList) :
    JsonText.parse ofNumeral (errorText reason) =
      some (.object
        [("type".toList, .number (ofNumeral (printLong ServerMessageType.error.code))),
          ("status".toList, .string "failed".toList),
          ("reason".toList, .string reason.toList)]) := by
  have hlength : 8 ≤ (errorText reason).length := by
    rw [errorText_eq]
    simp only [Line.print, quoted, List.length_cons, List.length_append]
    omega
  obtain ⟨fuel, hfuel⟩ : ∃ fuel, (errorText reason).length = fuel + 8 :=
    ⟨(errorText reason).length - 8, by omega⟩
  have hmembers := readMembers_errorText ofNumeral hreason fuel
  obtain ⟨tail, hstart⟩ : ∃ tail,
      Line.print 0 ⟨"type", 1, printLong ServerMessageType.error.code⟩ ++
        ',' :: (Line.print 1 ⟨"status", 1, quoted "failed".toList⟩ ++
          ',' :: (Line.print 1 ⟨"reason", 1, quoted reason.toList⟩ ++ ['\x7d'])) = '"' :: tail :=
    ⟨_, rfl⟩
  have hquote : skipBlanks ('"' :: tail) = '"' :: tail := skipBlanks_of_visible (by decide) tail
  unfold JsonText.parse
  rw [hfuel, errorText_eq, skipBlanks_of_visible (by decide)]
  rw [hstart] at hmembers ⊢
  rw [hquote] at hmembers
  rw [readValue, hquote]
  change ((readMembers ofNumeral (fuel + 8) ('"' :: tail)).map _).bind _ = _
  rw [hmembers]
  rfl

theorem length_errorText_le {reason : String} (hreason : reason.toList.length ≤ 100) :
    (errorText reason).length ≤ 1000 := by
  have hcode : (printLong ServerMessageType.error.code).length ≤ 7 := by decide
  have hnames : "type".toList.length = 4 ∧ "status".toList.length = 6 ∧
      "failed".toList.length = 6 ∧ "reason".toList.length = 6 := by decide
  rw [errorText_eq]
  simp only [Line.print, quoted, List.length_cons, List.length_append, List.length_replicate,
    List.length_nil]
  omega

theorem errorResponse_eq {reason : String} (hreason : reason.toList.length ≤ 100) :
    errorResponse reason = errorText reason :=
  snprintf_of_fits ((length_errorText_le hreason).trans_lt (by decide))

end Errors

/-! ## What the client does with them -/

section Reading

variable {α : Type} {cjson : CJson α} {ofNumeral : CString → α} {printer : ResponsePrinter α}

/-- What is printed for a value is a C string and is parsed as the value. -/
structure CJson.Transmits (cjson : CJson α) (root : Json α) : Prop where
  parses : cjson.parse (cjson.print root) = some root
  plain : nul ∉ cjson.print root

/-- A response that a client can read: its strings are plain and not cut off, and the
quantities are numbers of their type. -/
def Response.Readable (cjson : CJson α) (printer : ResponsePrinter α) : Response α → Prop
  | .orderAccepted order _ => Printable printer order ∧ IsInt order.quantity
  | .orderCanceled orderId symbol _ =>
      (orderId.length < maxIdLength ∧ symbol.length < maxSymbolLength) ∧
        PlainText orderId ∧ PlainText symbol
  | .bookSnapshot sent => cjson.Transmits (snapshotRoot cjson sent) ∧
      (∀ level ∈ sent.bids, IsInt level.2) ∧ ∀ level ∈ sent.asks, IsInt level.2
  | .error reason => reason.toList.length ≤ 100 ∧ PlainText reason.toList

variable (ofNumeral printer) in
/-- What is shown of a confirmed order. -/
def confirmationNotice (order : OrderMessage α) : Notice α :=
  .orderPlaced order.orderId order.symbol (sideText order.isBuy)
    (ofNumeral (printer.rounded order.price).print) order.quantity

variable (ofNumeral printer) in
/-- What a client does with a response. -/
def ClientApp.told (app : ClientApp α) : Response α → ClientApp α
  | .orderAccepted order _ => app.print (confirmationNotice ofNumeral printer order)
  | .bookSnapshot sent =>
      if app.isViewRequested then
        { app.print (.orderBook sent.symbol sent.bids.reverse sent.asks) with
          isViewRequested := false }
      else app
  | _ => app

/-- Strings that fit are not cut off. -/
theorem Printable.cut_eq {order : OrderMessage α} (hprintable : Printable printer order) :
    order.cut = order := by
  unfold OrderMessage.cut
  rw [List.take_of_length_le hprintable.orderId.1, List.take_of_length_le hprintable.traderId.1,
    List.take_of_length_le hprintable.symbol.1]

theorem handleText_acceptedResponse (hreads : cjson.ReadsJson ofNumeral)
    {order : OrderMessage α} (hprintable : Printable printer order)
    (hquantity : IsInt order.quantity) (timestamp : Int) (app : ClientApp α)
    (stack : TradeBuffer α) :
    app.handleText cjson (acceptedResponse printer order timestamp) stack =
      .ok (app.print (confirmationNotice ofNumeral printer order)) := by
  have hlength := length_acceptedText_le printer order timestamp hquantity.1 hquantity.2
  have hparse := (parse_acceptedText_iff hreads printer order hquantity.1 hquantity.2 _
    timestamp).mpr ⟨hprintable, rfl⟩
  rw [hprintable.cut_eq] at hlength hparse
  rw [acceptedResponse, snprintf_of_fits (hlength.trans_lt (by decide))]
  exact handleText_accepted hreads hlength hparse hquantity.1 hquantity.2 app stack

/-- The levels of a side, as the client reads them. -/
theorem mapM_snapshotLevel {entries : List (α × Int)}
    (hquantities : ∀ entry ∈ entries, IsInt entry.2) :
    (entries.map (levelItem cjson)).mapM (snapshotLevel cjson) = .ok entries := by
  induction entries with
  | nil => rfl
  | cons entry rest ih =>
      obtain ⟨hfirst, hrest⟩ := List.forall_mem_cons.mp hquantities
      have hentry : snapshotLevel cjson (levelItem cjson entry) = .ok entry := by
        change Except.ok (entry.1, cjson.toInt (cjson.ofInt entry.2)) = _
        rw [toInt_ofInt_of_isInt hfirst]
      rw [List.map_cons, List.mapM_cons, hentry, ih hrest]
      rfl

/-- A snapshot is shown when it was asked for. -/
theorem handleText_snapshot {sent : BookSnapshot α}
    (hprint : cjson.parse (cjson.print (snapshotRoot cjson sent)) =
      some (snapshotRoot cjson sent))
    (hbids : ∀ level ∈ sent.bids, IsInt level.2) (hasks : ∀ level ∈ sent.asks, IsInt level.2)
    (app : ClientApp α) (stack : TradeBuffer α) :
    app.handleText cjson (cjson.print (snapshotRoot cjson sent)) stack =
      .ok (app.told ofNumeral printer (.bookSnapshot sent)) := by
  have hbase : parseBaseMessage cjson (cjson.print (snapshotRoot cjson sent)) =
      some ServerMessageType.bookSnapshot.code := by
    rw [parseBaseMessage, hprint]
    rfl
  have hbidsRead : (sent.bids.map (levelItem cjson)).reverse.mapM (snapshotLevel cjson) =
      .ok sent.bids.reverse := by
    rw [← List.map_reverse]
    exact mapM_snapshotLevel fun level hlevel => hbids level (List.mem_reverse.mp hlevel)
  rw [ClientApp.handleText, hbase, hprint]
  change app.bookSnapshot cjson (snapshotRoot cjson sent) = _
  unfold ClientApp.bookSnapshot ClientApp.told
  split_ifs
  · change (do
      let bidLevels ← (sent.bids.map (levelItem cjson)).reverse.mapM (snapshotLevel cjson)
      let askLevels ← (sent.asks.map (levelItem cjson)).mapM (snapshotLevel cjson)
      .ok { app.print (.orderBook sent.symbol bidLevels askLevels) with
        isViewRequested := false }) = _
    rw [hbidsRead, mapM_snapshotLevel hasks]
    rfl
  · rfl

/-- A text with a type that the client only logs. -/
theorem handleText_logged {text : CString} {root : Json α} (hparse : cjson.parse text = some root)
    {type : ServerMessageType} (htype : type = .error ∨ type = .orderCanceled)
    (hroot : root.getObjectItem "type" = some (.number (cjson.ofInt type.code)))
    (app : ClientApp α) (stack : TradeBuffer α) : app.handleText cjson text stack = .ok app := by
  have hcode := cjson.toInt_ofInt type.code (ServerMessageType.code_isInt type).1
    (ServerMessageType.code_isInt type).2
  have hbase : parseBaseMessage cjson text = some type.code := by
    rw [parseBaseMessage, hparse]
    dsimp only
    rw [hroot]
    exact congrArg some hcode
  rw [ClientApp.handleText, hbase, hparse]
  rcases htype with rfl | rfl <;> rfl

/-- An error is only logged. -/
theorem handleText_error (hreads : cjson.ReadsJson ofNumeral) {reason : String}
    (hlength : reason.toList.length ≤ 100) (hplain : PlainText reason.toList)
    (app : ClientApp α) (stack : TradeBuffer α) :
    app.handleText cjson (errorResponse reason) stack = .ok app := by
  rw [errorResponse_eq hlength]
  have hparse := hreads.reads _ _ (length_errorText_le hlength) (parse_errorText hplain)
  have hcode := hreads.integer _ (ServerMessageType.code_isInt .error).1
    (ServerMessageType.code_isInt .error).2
  rw [hcode] at hparse
  exact handleText_logged hparse (Or.inl rfl) rfl app stack

/-- A confirmed cancellation is only logged. -/
theorem handleText_canceled (hreads : cjson.ReadsJson ofNumeral) {orderId symbol : CString}
    (hfits : orderId.length < maxIdLength ∧ symbol.length < maxSymbolLength)
    (hplain : PlainText orderId ∧ PlainText symbol) (timestamp : Int) (app : ClientApp α)
    (stack : TradeBuffer α) :
    app.handleText cjson (canceledResponse printer orderId symbol timestamp) stack = .ok app := by
  have hconfirms := (confirmsCancel_iff hreads printer hfits.1 hfits.2 timestamp).mpr hplain
  have hlength : (canceledResponse printer orderId symbol timestamp).length ≤ 1000 := by
    rw [canceledResponse, snprintf_of_fits hconfirms.fits]
    exact length_canceledText_le printer hfits.1 hfits.2 timestamp
  exact handleText_logged (hreads.reads _ _ hlength hconfirms.reads) (Or.inr rfl) rfl app stack

/-- The client does with the text of a response what it says. -/
theorem handleText_responseText (hreads : cjson.ReadsJson ofNumeral) {response : Response α}
    (hreadable : response.Readable cjson printer) (app : ClientApp α) (stack : TradeBuffer α) :
    app.handleText cjson (responseText cjson printer response) stack =
      .ok (app.told ofNumeral printer response) := by
  cases response with
  | orderAccepted order timestamp =>
      exact handleText_acceptedResponse hreads hreadable.1 hreadable.2 timestamp app stack
  | orderCanceled orderId symbol timestamp =>
      exact handleText_canceled hreads hreadable.1 hreadable.2 timestamp app stack
  | bookSnapshot sent =>
      exact handleText_snapshot hreadable.1.parses hreadable.2.1 hreadable.2.2 app stack
  | error reason => exact handleText_error hreads hreadable.1 hreadable.2 app stack

/-! ## Responses as C strings -/

/-- Lines without NUL make an object without NUL. -/
theorem nul_notMem_printObject {indent : Nat} {lines : List Line}
    (hlines : ∀ line ∈ lines, nul ∉ line.name.toList ∧ nul ∉ line.text) :
    nul ∉ printObject indent lines := by
  have hblanks : ∀ count, nul ∉ List.replicate count ' ' := fun count hmem =>
    absurd (List.eq_of_mem_replicate hmem) (by decide)
  have hprinted : nul ∉ printLines (indent + 4) lines := by
    induction lines with
    | nil => exact List.not_mem_nil
    | cons line rest ih =>
        obtain ⟨⟨hname, htext⟩, hrest⟩ := List.forall_mem_cons.mp hlines
        have hline : nul ∉ line.print (indent + 4) := by
          simp only [Line.print, List.mem_append, List.mem_cons, not_or]
          exact ⟨hblanks _, by decide, hname, by decide, by decide, hblanks _, htext⟩
        cases rest with
        | nil => exact hline
        | cons next rest =>
            simp only [printLines, List.mem_append, List.mem_cons, not_or]
            exact ⟨hline, by decide, by decide, ih hrest⟩
  simp only [printObject, List.mem_append, List.mem_cons, not_or]
  exact ⟨by decide, by decide, hprinted, by decide, hblanks _, by decide, List.not_mem_nil⟩

theorem nul_notMem_of_plain {text : CString} (hplain : PlainText text) : nul ∉ text :=
  fun hmem => absurd (hplain nul hmem) (by decide)

theorem nul_notMem_printLong (value : Int) : nul ∉ printLong value :=
  fun hmem => absurd (mem_printLong hmem) (by decide)

theorem nul_notMem_quoted {text : CString} (htext : nul ∉ text) : nul ∉ quoted text := by
  simp only [quoted, List.mem_append, List.mem_cons, not_or]
  exact ⟨by decide, htext, by decide, List.not_mem_nil⟩

theorem RoundedPrice.nul_notMem_print (rounded : RoundedPrice) : nul ∉ rounded.print := by
  have hsign : ∀ negative, nul ∉ printSign negative := by decide
  have hdigit : ∀ n, nul ∉ Nat.toDigits 10 n := fun n hmem =>
    absurd (isDigit_of_mem_toDigits nul hmem) (by decide)
  have hlast : ∀ n : Nat, nul ≠ (n % 10).digitChar := by
    intro n heq
    have hisDigit : (n % 10).digitChar.isDigit = true := by
      rw [Nat.isDigit_digitChar]
      exact decide_eq_true (Nat.mod_lt n (by decide))
    rw [← heq] at hisDigit
    exact absurd hisDigit (by decide)
  cases rounded with
  | finite negative hundredths bound =>
      have hpoint : nul ≠ '.' := by decide
      simp [RoundedPrice.print, hsign, hdigit, hlast, hpoint]
  | infinite negative => cases negative <;> decide
  | nan negative => cases negative <;> decide

theorem nul_notMem_acceptedText {order : OrderMessage α} (hprintable : Printable printer order)
    (timestamp : Int) : nul ∉ acceptedText printer order timestamp := by
  have hside : nul ∉ sideText order.isBuy := by cases order.isBuy <;> decide
  have horderId := nul_notMem_of_plain hprintable.orderId.2
  have htraderId := nul_notMem_of_plain hprintable.traderId.2
  have hsymbol := nul_notMem_of_plain hprintable.symbol.2
  have hdetails : nul ∉ printObject 4
      [⟨"Type", 10, quoted (sideText order.isBuy)⟩, ⟨"Order ID", 6, quoted order.orderId⟩,
        ⟨"Trader ID", 5, quoted order.traderId⟩, ⟨"Symbol", 8, quoted order.symbol⟩,
        ⟨"Price", 9, (printer.rounded order.price).print⟩,
        ⟨"Quantity", 6, printLong order.quantity⟩] := by
    apply nul_notMem_printObject
    simp only [List.forall_mem_cons]
    exact ⟨⟨by decide, nul_notMem_quoted hside⟩, ⟨by decide, nul_notMem_quoted horderId⟩,
      ⟨by decide, nul_notMem_quoted htraderId⟩, ⟨by decide, nul_notMem_quoted hsymbol⟩,
      ⟨by decide, RoundedPrice.nul_notMem_print _⟩, ⟨by decide, nul_notMem_printLong _⟩,
      fun _ hmem => absurd hmem List.not_mem_nil⟩
  apply nul_notMem_printObject
  simp only [List.forall_mem_cons]
  exact ⟨⟨by decide, nul_notMem_printLong _⟩, ⟨by decide, hdetails⟩,
    ⟨by decide, nul_notMem_quoted (nul_notMem_of_plain (printer.localtime timestamp).plain)⟩,
    ⟨by decide, nul_notMem_quoted (by decide)⟩, fun _ hmem => absurd hmem List.not_mem_nil⟩

theorem nul_notMem_canceledText {orderId symbol : CString}
    (hplain : PlainText orderId ∧ PlainText symbol) (timestamp : Int) :
    nul ∉ canceledText printer orderId symbol timestamp := by
  have hdetails : nul ∉ printObject 4
      [⟨"Order ID", 6, quoted orderId⟩, ⟨"Symbol", 8, quoted symbol⟩] := by
    apply nul_notMem_printObject
    simp only [List.forall_mem_cons]
    exact ⟨⟨by decide, nul_notMem_quoted (nul_notMem_of_plain hplain.1)⟩,
      ⟨by decide, nul_notMem_quoted (nul_notMem_of_plain hplain.2)⟩,
      fun _ hmem => absurd hmem List.not_mem_nil⟩
  apply nul_notMem_printObject
  simp only [List.forall_mem_cons]
  exact ⟨⟨by decide, nul_notMem_printLong _⟩, ⟨by decide, hdetails⟩,
    ⟨by decide, nul_notMem_quoted (nul_notMem_of_plain (printer.localtime timestamp).plain)⟩,
    ⟨by decide, nul_notMem_quoted (by decide)⟩, fun _ hmem => absurd hmem List.not_mem_nil⟩

theorem nul_notMem_errorText {reason : String} (hplain : PlainText reason.toList) :
    nul ∉ errorText reason := by
  have hstart : nul ∉ "\x7b\"type\": ".toList := by decide +kernel
  have hmiddle : nul ∉ ", \"status\": \"failed\", \"reason\": \"".toList := by decide +kernel
  have hend : nul ∉ "\"\x7d".toList := by decide +kernel
  unfold errorText
  simp only [List.mem_append, not_or]
  exact ⟨hstart, nul_notMem_printLong _, hmiddle, nul_notMem_of_plain hplain, hend⟩

theorem nul_notMem_responseText {response : Response α}
    (hreadable : response.Readable cjson printer) :
    nul ∉ responseText cjson printer response := by
  cases response with
  | orderAccepted order timestamp =>
      exact fun hmem => nul_notMem_acceptedText hreadable.1 timestamp (List.mem_of_mem_take hmem)
  | orderCanceled orderId symbol timestamp =>
      exact fun hmem => nul_notMem_canceledText hreadable.2 timestamp (List.mem_of_mem_take hmem)
  | bookSnapshot sent => exact hreadable.1.plain
  | error reason =>
      exact fun hmem => nul_notMem_errorText hreadable.2 (List.mem_of_mem_take hmem)

/-- A response, received as the C string that was sent, whatever is behind its NUL in memory. -/
theorem handleMessage_responseText (hreads : cjson.ReadsJson ofNumeral) {response : Response α}
    (hreadable : response.Readable cjson printer) (app : ClientApp α) (behind : List Char)
    (len : Nat) (stack : TradeBuffer α) :
    app.handleMessage cjson (responseText cjson printer response ++ nul :: behind) len stack =
      .ok (app.told ofNumeral printer response) := by
  rw [ClientApp.handleMessage, readText_append_nul (nul_notMem_responseText hreadable)]
  exact handleText_responseText hreads hreadable app stack

end Reading

end QuantTrading
