import QuantTrading.Client.ClientCommands
import QuantTrading.Server.Worker

/-! # From the command line to the handler

The way of a command: the client parses the line and formats the command as JSON, a
worker of the server finds the type of the text and runs the handler of that type.
There is a handler for cancel messages, but the client formats none.
-/

namespace QuantTrading

variable {α : Type}

/-- The handler of the type of the command is run, and sees what the command says. The
word after CANCEL is the id of the order. -/
def Delivered (cjson : CJson α) (cmd : Command α) (traderId : CString) (frame : WorkerFrame α) :
    Prop :=
  ∃ message, formatCommandAsJson cjson cmd traderId = some message ∧
    match cmd.type with
    | .view => decodeMessage cjson message frame = .ok (.ok (.requestBook (some cmd.symbol)))
    | .cancel => ∃ request,
        decodeMessage cjson message frame = .ok (.ok (.cancelOrder frame.confirmed request)) ∧
        request.orderId = some cmd.orderId ∧ request.symbol.isSome ∧ request.isBuy.isSome
    | _ => ∃ order,
        decodeMessage cjson message frame =
          .ok (.ok (.placeOrder frame.created frame.confirmed (some order))) ∧
        order.symbol = cmd.symbol ∧ order.orderId = cmd.orderId ∧
        order.isBuy = decide (cmd.type = .buy) ∧ order.price = cmd.price ∧
        order.quantity = cmd.quantity

/-- The line is not a CANCEL command, and for an order the symbol on the line and the
trader id can be read back from the struct on the server's stack. -/
def Deliverable (line traderId : CString) (stack : OrderBuffer α) : Prop :=
  ∃ command rest symbol arguments,
    OrderLoader.strtok isCommandDelimiter (OrderLoader.copyField 256 line) = some (command, rest) ∧
    OrderLoader.strtok isCommandDelimiter rest = some (symbol, arguments) ∧
    (commandType command = .view ∨ commandType command ≠ .cancel ∧
      stack.symbol.Holds symbol ∧ stack.traderId.Holds traderId)

section Decode

variable {cjson : CJson α} {cmd : Command α} {traderId : CString}

theorem commandRoot_of_place (htype : cmd.type = .buy ∨ cmd.type = .sell) :
    commandRoot cjson cmd traderId = some (placeRoot cjson cmd traderId) := by
  rcases htype with htype | htype <;> rw [commandRoot, htype]

/-- The text of a BUY or SELL command is dispatched to `handle_place_order`. -/
theorem decodeMessage_placeRoot
    (hprint : cjson.parse (cjson.print (placeRoot cjson cmd traderId)) =
      some (placeRoot cjson cmd traderId)) (frame : WorkerFrame α) :
    decodeMessage cjson (cjson.print (placeRoot cjson cmd traderId)) frame =
      match placeRequest cjson (placeRoot cjson cmd traderId) frame.stack with
      | .error fault => .error fault
      | .ok order => .ok (.ok (.placeOrder frame.created frame.confirmed order)) := by
  have hbase : parseBaseMessage cjson (cjson.print (placeRoot cjson cmd traderId)) = some 1 := by
    rw [parseBaseMessage, hprint]
    exact congrArg some (cjson.toInt_ofInt 1 (by decide) (by decide))
  have hhandler : (messageHandlers.find? fun handler => handler.code = 1) = some .placeOrder := rfl
  rw [decodeMessage, hbase, hprint]
  simp only [hhandler, handlerCall]
  cases placeRequest cjson (placeRoot cjson cmd traderId) frame.stack <;> rfl

/-- The order that `handle_place_order` sees for a BUY or SELL command. -/
theorem placeRequest_placeRoot
    (hprint : cjson.parse (cjson.print (placeRoot cjson cmd traderId)) =
      some (placeRoot cjson cmd traderId))
    (hsymbol : nul ∉ cmd.symbol) (horderId : nul ∉ cmd.orderId) (htraderId : nul ∉ traderId)
    (stack : OrderBuffer α) :
    placeRequest cjson (placeRoot cjson cmd traderId) stack =
      if stack.symbol.Holds cmd.symbol ∧ stack.orderId.Holds cmd.orderId ∧
          stack.traderId.Holds traderId then
        .ok (some
          { symbol := cmd.symbol.take 15
            orderId := cmd.orderId.take 31
            traderId := traderId.take 31
            price := cmd.price
            quantity := cjson.toInt (cjson.ofInt cmd.quantity)
            isBuy := decide (cmd.type = .buy) })
      else .error .outOfBounds := by
  have hstrings : (placeRoot cjson cmd traderId).PlainStrings := by
    apply Json.plainStrings_object
    simp [Json.valuestring, hsymbol, horderId, htraderId]
  exact placeRequest_of_members hprint hstrings rfl rfl rfl rfl rfl rfl

/-- The text of a VIEW command is dispatched to `handle_book_request`. -/
theorem decodeMessage_viewRoot
    (hprint : cjson.parse (cjson.print (viewRoot cjson cmd)) = some (viewRoot cjson cmd))
    (frame : WorkerFrame α) :
    decodeMessage cjson (cjson.print (viewRoot cjson cmd)) frame =
      .ok (.ok (.requestBook (some cmd.symbol))) := by
  have hbase : parseBaseMessage cjson (cjson.print (viewRoot cjson cmd)) = some 3 := by
    rw [parseBaseMessage, hprint]
    exact congrArg some (cjson.toInt_ofInt 3 (by decide) (by decide))
  have hhandler : (messageHandlers.find? fun handler => handler.code = 3) = some .requestBook := rfl
  rw [decodeMessage, hbase, hprint]
  simp only [hhandler, handlerCall]
  rfl

end Decode

section Delivery

variable [LT α] [DecidableLT α] {limits : PriceLimits α} {now : TimeT} {cjson : CJson α}
  {cmd : Command α} {traderId : CString}

/-- A BUY or SELL command is delivered when its texts can be read back. Its id always
can, and its quantity survives the way through a `double`. -/
theorem delivered_place_iff (hparsed : cmd.Parsed limits now)
    (htype : cmd.type = .buy ∨ cmd.type = .sell) (htraderId : nul ∉ traderId)
    (hprint : cjson.parse (cjson.print (placeRoot cjson cmd traderId)) =
      some (placeRoot cjson cmd traderId)) (frame : WorkerFrame α) :
    Delivered cjson cmd traderId frame ↔
      frame.stack.symbol.Holds cmd.symbol ∧ frame.stack.traderId.Holds traderId := by
  obtain ⟨hid, _, hquantity⟩ := hparsed.terms htype
  have hidShort : cmd.orderId.length < 31 := hid ▸ length_generateOrderId_lt now
  have hidPlain : nul ∉ cmd.orderId := hid ▸ generateOrderId_plain now
  have hcarried : cjson.toInt (cjson.ofInt cmd.quantity) = cmd.quantity := by
    have hrange : 1 ≤ cmd.quantity ∧ cmd.quantity ≤ 1000000 := by
      unfold validateQuantity minQuantity maxQuantity at hquantity
      split_ifs at hquantity with hout
      omega
    exact cjson.toInt_ofInt _ (by unfold intMin; omega) (by unfold intMax; omega)
  have hformat : formatCommandAsJson cjson cmd traderId =
      some (cjson.print (placeRoot cjson cmd traderId)) := by
    rw [formatCommandAsJson, commandRoot_of_place htype]
    rfl
  have hdecode := decodeMessage_placeRoot hprint frame
  rw [placeRequest_placeRoot hprint hparsed.symbol_plain hidPlain htraderId, hcarried,
    List.take_of_length_le hparsed.symbol_fits, List.take_of_length_le hidShort.le] at hdecode
  have hholds : frame.stack.orderId.Holds cmd.orderId := Or.inl hidShort
  constructor
  · rintro ⟨message, hmessage, hseen⟩
    cases hformat.symm.trans hmessage
    by_contra hnot
    rw [if_neg fun hall => hnot ⟨hall.1, hall.2.2⟩] at hdecode
    rcases htype with htype | htype <;> simp only [htype] at hseen <;>
      obtain ⟨order, hok, _⟩ := hseen <;> exact absurd (hdecode.symm.trans hok) nofun
  · rintro ⟨hsymbol, htrader⟩
    rw [if_pos ⟨hsymbol, hholds, htrader⟩] at hdecode
    refine ⟨_, hformat, ?_⟩
    rcases htype with htype | htype <;> simp only [htype] at hdecode ⊢ <;>
      exact ⟨_, hdecode, rfl, rfl, by simp, rfl, rfl⟩

omit [LT α] [DecidableLT α] in
theorem delivered_view (htype : cmd.type = .view)
    (hprint : cjson.parse (cjson.print (viewRoot cjson cmd)) = some (viewRoot cjson cmd))
    (frame : WorkerFrame α) : Delivered cjson cmd traderId frame := by
  refine ⟨cjson.print (viewRoot cjson cmd), ?_, ?_⟩
  · rw [formatCommandAsJson, commandRoot, htype]
    rfl
  · simp only [htype]
    exact decodeMessage_viewRoot hprint frame

omit [LT α] [DecidableLT α] in
/-- A CANCEL command is not formatted. -/
theorem not_delivered_cancel (htype : cmd.type = .cancel) (frame : WorkerFrame α) :
    ¬ Delivered cjson cmd traderId frame := by
  rintro ⟨message, hmessage, _⟩
  simp [formatCommandAsJson, commandRoot, htype] at hmessage

omit [LT α] [DecidableLT α] in
/-- The words of a line are determined. -/
theorem deliverable_iff {line command rest symbol arguments : CString}
    (hcommand : OrderLoader.strtok isCommandDelimiter (OrderLoader.copyField 256 line) =
      some (command, rest))
    (hsymbol : OrderLoader.strtok isCommandDelimiter rest = some (symbol, arguments))
    (stack : OrderBuffer α) :
    Deliverable line traderId stack ↔
      (commandType command = .view ∨ commandType command ≠ .cancel ∧
        stack.symbol.Holds symbol ∧ stack.traderId.Holds traderId) := by
  constructor
  · rintro ⟨_, _, _, _, hfirst, hsecond, hcondition⟩
    cases hcommand.symm.trans hfirst
    cases hsymbol.symm.trans hsecond
    exact hcondition
  · intro hcondition
    exact ⟨command, rest, symbol, arguments, hcommand, hsymbol, hcondition⟩

variable [Zero α]

/-- For every line that is accepted as a BUY, SELL, CANCEL or VIEW command and every
trader id, the command reaches its handler as it was given exactly when it is no CANCEL
command and, for an order, its symbol and the trader id can be read back from the struct
on the stack of the worker. -/
theorem delivered_iff_deliverable (cjson : CJson α) (readers : NumeralReaders α)
    (limits : PriceLimits α) (now : TimeT) {line traderId : CString} (hline : nul ∉ line)
    (htraderId : nul ∉ traderId)
    (haccepted : (parseCommand readers limits now line).type ∈ CommandType.toServer)
    (hprint : ∀ root,
      commandRoot cjson (parseCommand readers limits now line) traderId = some root →
      cjson.parse (cjson.print root) = some root) (frame : WorkerFrame α) :
    Delivered cjson (parseCommand readers limits now line) traderId frame ↔
      Deliverable line traderId frame.stack := by
  obtain ⟨command, rest, symbol, arguments, hcommand, hsymbol, htype, hcut⟩ :=
    parseCommand_words haccepted
  have hparsed : (parseCommand readers limits now line).Parsed limits now :=
    parseCommand_parsed hline
  rw [deliverable_iff hcommand hsymbol, htype, ← frame.stack.symbol.holds_take_iff symbol, ← hcut]
  generalize parseCommand readers limits now line = cmd at *
  have hplace : cmd.type = .buy ∨ cmd.type = .sell → (Delivered cjson cmd traderId frame ↔
      frame.stack.symbol.Holds cmd.symbol ∧ frame.stack.traderId.Holds traderId) :=
    fun horder => delivered_place_iff hparsed horder htraderId
      (hprint _ (commandRoot_of_place horder)) frame
  cases hkind : cmd.type with
  | buy => rw [hplace (Or.inl hkind)]; simp
  | sell => rw [hplace (Or.inr hkind)]; simp
  | cancel => exact iff_of_false (not_delivered_cancel hkind frame) (by simp)
  | view =>
      have hroot : commandRoot cjson cmd traderId = some (viewRoot cjson cmd) := by
        rw [commandRoot, hkind]
      exact iff_of_true (delivered_view hkind (hprint _ hroot) frame) (Or.inl rfl)
  | help => simp [hkind, CommandType.toServer] at haccepted
  | quit => simp [hkind, CommandType.toServer] at haccepted
  | invalid => simp [hkind, CommandType.toServer] at haccepted

end Delivery

/-- Readers of whole numbers, for typed commands. -/
def typedReaders : NumeralReaders ℚ where
  atof text := (Nat.ofDigitChars 10 text 0 : ℕ)
  atoi text := Nat.ofDigitChars 10 text 0

/-- The frame of a worker whose stack holds zeros. -/
def clearedFrame : WorkerFrame ℚ where
  created := 0
  confirmed := 0
  stack := .zero 0

/-- A library that parses back the message of a command. -/
def commandJson (cmd : Command ℚ) (traderId : CString) : CJson ℚ :=
  CJson.table ((commandRoot (CJson.table [] []) cmd traderId).toList.map ("message".toList, ·))
    "message".toList

theorem commandJson_parses {cmd : Command ℚ} {traderId : CString} {root : Json ℚ}
    (hroot : commandRoot (commandJson cmd traderId) cmd traderId = some root) :
    (commandJson cmd traderId).parse ((commandJson cmd traderId).print root) = some root := by
  have hnumbers : commandRoot (CJson.table [] []) cmd traderId = some root := hroot
  unfold commandJson
  rw [hnumbers]
  rfl

/-- A BUY command reaches `handle_place_order`. -/
theorem delivered_iff_deliverable_buy :
    let cmd := parseCommand typedReaders exactLimits ⟨7, by decide, by decide⟩
      "BUY AAPL 10 5\n".toList
    Delivered (commandJson cmd "T1".toList) cmd "T1".toList clearedFrame := by
  intro cmd
  refine (delivered_iff_deliverable (commandJson cmd "T1".toList) typedReaders exactLimits
    ⟨7, by decide, by decide⟩ (by decide) (by decide) ?_ ?_ clearedFrame).mpr ?_
  · decide +kernel
  · exact fun root hroot => commandJson_parses hroot
  · refine ⟨"BUY".toList, "AAPL 10 5\n".toList, "AAPL".toList, "10 5\n".toList, ?_⟩
    decide +kernel

/-- The client accepts a CANCEL command and sends nothing. -/
theorem cancel_command_not_formatted :
    let cmd := parseCommand typedReaders exactLimits ⟨7, by decide, by decide⟩
      "CANCEL ORD1\n".toList
    cmd.type = .cancel ∧ cmd.orderId = "ORD1".toList ∧
      formatCommandAsJson (commandJson cmd "T1".toList) cmd "T1".toList = none ∧
      ¬ Delivered (commandJson cmd "T1".toList) cmd "T1".toList clearedFrame := by
  intro cmd
  refine ⟨by decide +kernel, by decide +kernel, by decide +kernel, ?_⟩
  rintro ⟨message, hmessage, _⟩
  have hnone : formatCommandAsJson (commandJson cmd "T1".toList) cmd "T1".toList = none := by
    decide +kernel
  cases hnone.symm.trans hmessage

end QuantTrading
