import QuantTrading.Protocol.Validation
import QuantTrading.Protocol.Messages
import QuantTrading.Utils.OrderLoader

/-! # The commands of a client

The functions of `client_commands.c`: a line typed by a trader is parsed into a
command, and a command is formatted as the JSON text that is sent to the server. An
order id is made from the clock, in whole seconds.
-/

namespace QuantTrading

/-- `CommandType`. -/
inductive CommandType where
  | buy
  | sell
  | cancel
  | view
  | help
  | quit
  | invalid
deriving DecidableEq, Repr

/-- `Command`. -/
structure Command (α : Type) where
  type : CommandType
  symbol : CString
  price : α
  quantity : Int
  orderId : CString
deriving DecidableEq, Repr

/-- A `time_t` of 64 bits. -/
structure TimeT where
  seconds : Int
  lower : -2 ^ 63 ≤ seconds
  upper : seconds < 2 ^ 63
deriving DecidableEq

/-! ## The C library functions used -/

/-- The conversion `%ld` of `printf`. -/
def printLong : Int → CString
  | .ofNat value => Nat.toDigits 10 value
  | .negSucc value => '-' :: Nat.toDigits 10 (value + 1)

/-- Two numbers that are printed alike are equal. -/
theorem printLong_injective {first second : Int} (hprint : printLong first = printLong second) :
    first = second := by
  have hdigits : ∀ {m n : Nat}, Nat.toDigits 10 m = Nat.toDigits 10 n → m = n := by
    intro m n heq
    rw [← Nat.ofDigitChars_ten_toDigits (n := m), heq, Nat.ofDigitChars_ten_toDigits]
  -- a minus is not a digit
  have hminus : ∀ {m : Nat} {rest : List Char}, Nat.toDigits 10 m ≠ '-' :: rest := by
    intro m rest heq
    have hdigit := Nat.isDigit_of_mem_toDigits (b := 10) (c := '-') (n := m) (by decide) (by decide)
      (by rw [heq]; exact List.mem_cons_self)
    exact absurd hdigit (by decide)
  cases first with
  | ofNat m =>
      cases second with
      | ofNat n => exact congrArg Int.ofNat (hdigits hprint)
      | negSucc n => exact absurd hprint hminus
  | negSucc m =>
      cases second with
      | ofNat n => exact absurd hprint.symm hminus
      | negSucc n =>
          have hsucc := hdigits (List.cons.inj hprint).2
          exact congrArg Int.negSucc (Nat.succ.inj hsucc)

/-- The characters of a printed number. -/
theorem mem_printLong {value : Int} {c : Char} (hmem : c ∈ printLong value) :
    c = '-' ∨ c.isDigit = true := by
  have hdigit : ∀ {n : Nat}, c ∈ Nat.toDigits 10 n → c.isDigit = true := fun hmem =>
    Nat.isDigit_of_mem_toDigits (by decide) (by decide) hmem
  cases value with
  | ofNat n => exact Or.inr (hdigit hmem)
  | negSucc n => exact (List.mem_cons.mp hmem).imp_right hdigit

/-- A number of 64 bits has at most nineteen digits and a sign. -/
theorem length_printLong_le (now : TimeT) : (printLong now.seconds).length ≤ 20 := by
  obtain ⟨seconds, hlower, hupper⟩ := now
  have hdigits : ∀ {n : Nat}, n < 10 ^ 19 → (Nat.toDigits 10 n).length ≤ 19 :=
    fun hlt => (Nat.length_toDigits_le_iff (by decide) (by decide)).mpr hlt
  cases seconds with
  | ofNat n =>
      have hlt : n < 10 ^ 19 := by
        simp only [Int.ofNat_eq_natCast] at hupper
        omega
      exact (hdigits hlt).trans (by decide)
  | negSucc n =>
      have hlt : n + 1 < 10 ^ 19 := by omega
      exact Nat.succ_le_succ (hdigits hlt)

/-! ## Parsing -/

/-- `generate_order_id` into a buffer of `size` characters. -/
def generateOrderId (now : TimeT) (size : Nat) : CString :=
  OrderLoader.copyField size ("ORD".toList ++ printLong now.seconds)

/-- The delimiters of a command line. -/
def isCommandDelimiter (c : Char) : Bool :=
  c = ' ' || c = '\t' || c = '\n'

/-- The command that the first word of a line stands for. -/
def commandType (token : CString) : CommandType :=
  if OrderLoader.equalIgnoringCase token "BUY".toList then .buy
  else if OrderLoader.equalIgnoringCase token "SELL".toList then .sell
  else if OrderLoader.equalIgnoringCase token "CANCEL".toList then .cancel
  else if OrderLoader.equalIgnoringCase token "VIEW".toList then .view
  else if OrderLoader.equalIgnoringCase token "HELP".toList then .help
  else if OrderLoader.equalIgnoringCase token "QUIT".toList then .quit
  else .invalid

section Parse

variable {α : Type} [LT α] [DecidableLT α] [Zero α]

omit [LT α] [DecidableLT α] in
/-- `Command cmd = {0}` with a type. -/
def Command.zero (type : CommandType) : Command α where
  type := type
  symbol := []
  price := 0
  quantity := 0
  orderId := []

omit [Zero α] in
/-- The end of `parse_command` for BUY and SELL: the price, the quantity and the id. -/
def parseTerms (readers : NumeralReaders α) (limits : PriceLimits α) (now : TimeT)
    (cmd : Command α) (rest : CString) : Command α :=
  match OrderLoader.strtok isCommandDelimiter rest with
  | none => { cmd with type := .invalid }
  | some (priceToken, rest) =>
      let cmd := { cmd with price := readers.atof priceToken }
      if !validatePrice limits cmd.price then { cmd with type := .invalid }
      else
        match OrderLoader.strtok isCommandDelimiter rest with
        | none => { cmd with type := .invalid }
        | some (quantityToken, _) =>
            let cmd := { cmd with quantity := readers.atoi quantityToken }
            if !validateQuantity cmd.quantity then { cmd with type := .invalid }
            else { cmd with orderId := generateOrderId now 32 }

/-- The part of `parse_command` after the first word. -/
def parseArguments (readers : NumeralReaders α) (limits : PriceLimits α) (now : TimeT)
    (type : CommandType) (rest : CString) : Command α :=
  match OrderLoader.strtok isCommandDelimiter rest with
  | none => Command.zero .invalid
  | some (token, rest) =>
      let cmd : Command α :=
        { Command.zero type with symbol := OrderLoader.copyField 16 token }
      match type with
      | .view => cmd
      -- the word after CANCEL is both the symbol and the id
      | .cancel => { cmd with orderId := OrderLoader.copyField 32 token }
      | _ => parseTerms readers limits now cmd rest

/-- `parse_command`, with `now` the value of `time(NULL)` when an id is made. -/
def parseCommand (readers : NumeralReaders α) (limits : PriceLimits α) (now : TimeT)
    (input : CString) : Command α :=
  match OrderLoader.strtok isCommandDelimiter (OrderLoader.copyField 256 input) with
  | none => Command.zero .invalid
  | some (token, rest) =>
      match commandType token with
      | .help => Command.zero .help
      | .quit => Command.zero .quit
      | .invalid => Command.zero .invalid
      | type => parseArguments readers limits now type rest

end Parse

/-! ## What parsing gives -/

/-- A token and the rest consist of characters of the text. -/
theorem mem_of_strtok {isDelimiter : Char → Bool} {text token rest : CString}
    (htoken : OrderLoader.strtok isDelimiter text = some (token, rest)) {c : Char} :
    (c ∈ token → c ∈ text) ∧ (c ∈ rest → c ∈ text) := by
  have hsubset : ∀ {d}, d ∈ text.dropWhile isDelimiter → d ∈ text :=
    fun hmem => (List.dropWhile_suffix _).subset hmem
  unfold OrderLoader.strtok at htoken
  split at htoken
  · cases htoken
  next first others hrest =>
    rw [hrest] at hsubset
    cases htoken
    constructor
    · exact fun hmem => hsubset ((List.takeWhile_prefix _).subset hmem)
    · exact fun hmem => hsubset ((List.dropWhile_suffix _).subset (List.mem_of_mem_drop hmem))

/-- The id made at a time fits its field. -/
theorem generateOrderId_eq (now : TimeT) :
    generateOrderId now 32 = "ORD".toList ++ printLong now.seconds := by
  have hlength := length_printLong_le now
  apply List.take_of_length_le
  rw [List.length_append]
  change 3 + _ ≤ 31
  omega

theorem length_generateOrderId_lt (now : TimeT) : (generateOrderId now 32).length < 31 := by
  have hlength := length_printLong_le now
  rw [generateOrderId_eq, List.length_append]
  change 3 + _ < 31
  omega

theorem generateOrderId_plain (now : TimeT) : nul ∉ generateOrderId now 32 := by
  rw [generateOrderId_eq, List.mem_append]
  rintro (hmem | hmem)
  · exact absurd hmem (by decide)
  · exact absurd (mem_printLong hmem) (by decide)

section Parsed

variable {α : Type} [LT α] [DecidableLT α]

/-- What parsing guarantees of a command: the symbol fits its field, and a BUY or SELL
command has valid terms and an id made from the clock. -/
structure Command.Parsed (limits : PriceLimits α) (now : TimeT) (cmd : Command α) : Prop where
  symbol_plain : nul ∉ cmd.symbol
  symbol_fits : cmd.symbol.length ≤ 15
  terms : cmd.type = .buy ∨ cmd.type = .sell → cmd.orderId = generateOrderId now 32 ∧
    validatePrice limits cmd.price = true ∧ validateQuantity cmd.quantity = true

variable {readers : NumeralReaders α} {limits : PriceLimits α} {now : TimeT}

/-- A command that places nothing has no terms to check. -/
theorem Command.parsed_of_type {cmd : Command α} (hplain : nul ∉ cmd.symbol)
    (hfits : cmd.symbol.length ≤ 15) (hbuy : cmd.type ≠ .buy) (hsell : cmd.type ≠ .sell) :
    cmd.Parsed limits now :=
  ⟨hplain, hfits, fun htype => (htype.elim hbuy hsell).elim⟩

theorem parseTerms_parsed {cmd : Command α} (hplain : nul ∉ cmd.symbol)
    (hfits : cmd.symbol.length ≤ 15) (rest : CString) :
    (parseTerms readers limits now cmd rest).Parsed limits now := by
  unfold parseTerms
  split
  · exact Command.parsed_of_type hplain hfits (by simp) (by simp)
  next priceToken rest' _ =>
    dsimp only
    split_ifs with hprice
    · exact Command.parsed_of_type hplain hfits (by simp) (by simp)
    · split
      · exact Command.parsed_of_type hplain hfits (by simp) (by simp)
      next quantityToken _ _ =>
        split_ifs with hquantity
        · exact Command.parsed_of_type hplain hfits (by simp) (by simp)
        · refine ⟨hplain, hfits, fun _ => ⟨rfl, ?_, ?_⟩⟩
          · simpa using hprice
          · simpa using hquantity

/-- Parsing the terms keeps the symbol, and the type unless it fails. -/
theorem parseTerms_type (cmd : Command α) (rest : CString) :
    (parseTerms readers limits now cmd rest).symbol = cmd.symbol ∧
      ((parseTerms readers limits now cmd rest).type = .invalid ∨
        (parseTerms readers limits now cmd rest).type = cmd.type) := by
  unfold parseTerms
  split
  · exact ⟨rfl, Or.inl rfl⟩
  · dsimp only
    split_ifs
    · exact ⟨rfl, Or.inl rfl⟩
    · split
      · exact ⟨rfl, Or.inl rfl⟩
      · split_ifs
        · exact ⟨rfl, Or.inl rfl⟩
        · exact ⟨rfl, Or.inr rfl⟩

variable [Zero α]

theorem Command.zero_parsed {type : CommandType} (hbuy : type ≠ .buy) (hsell : type ≠ .sell) :
    (Command.zero type : Command α).Parsed limits now :=
  Command.parsed_of_type List.not_mem_nil (Nat.zero_le _) hbuy hsell

theorem parseArguments_parsed {rest : CString} (hrest : nul ∉ rest) (type : CommandType) :
    (parseArguments readers limits now type rest).Parsed limits now := by
  unfold parseArguments
  split
  · exact Command.zero_parsed (by simp) (by simp)
  next token rest' htoken =>
    have hplain : nul ∉ OrderLoader.copyField 16 token := fun hmem =>
      hrest ((mem_of_strtok htoken).1 (List.mem_of_mem_take hmem))
    have hfits : (OrderLoader.copyField 16 token).length ≤ 15 := List.length_take_le _ _
    dsimp only
    split
    · exact Command.parsed_of_type hplain hfits (by simp [Command.zero]) (by simp [Command.zero])
    · exact Command.parsed_of_type hplain hfits (by simp [Command.zero]) (by simp [Command.zero])
    · exact parseTerms_parsed hplain hfits rest'

theorem parseCommand_parsed {input : CString} (hinput : nul ∉ input) :
    (parseCommand readers limits now input).Parsed limits now := by
  unfold parseCommand
  split
  · exact Command.zero_parsed (by simp) (by simp)
  next token rest htoken =>
    split
    · exact Command.zero_parsed (by simp) (by simp)
    · exact Command.zero_parsed (by simp) (by simp)
    · exact Command.zero_parsed (by simp) (by simp)
    · apply parseArguments_parsed
      exact fun hmem => hinput (List.mem_of_mem_take ((mem_of_strtok htoken).2 hmem))

/-- The commands that are to be sent to the server. -/
def CommandType.toServer : List CommandType :=
  [.buy, .sell, .cancel, .view]

/-- When the rest of the line gives a command for the server, it starts with the symbol. -/
theorem parseArguments_words {type : CommandType} {rest : CString}
    (htype : (parseArguments readers limits now type rest).type ∈ CommandType.toServer) :
    ∃ symbol arguments, OrderLoader.strtok isCommandDelimiter rest = some (symbol, arguments) ∧
      type = (parseArguments readers limits now type rest).type ∧
      (parseArguments readers limits now type rest).symbol = symbol.take 15 := by
  cases hsymbol : OrderLoader.strtok isCommandDelimiter rest with
  | none =>
      rw [parseArguments, hsymbol] at htype
      exact absurd htype (by simp [Command.zero, CommandType.toServer])
  | some word =>
      obtain ⟨symbol, arguments⟩ := word
      refine ⟨symbol, arguments, rfl, ?_⟩
      let cmd : Command α := { Command.zero type with symbol := OrderLoader.copyField 16 symbol }
      -- a view, a cancellation, or an order with its terms
      have hcases : (parseArguments readers limits now type rest).symbol = cmd.symbol ∧
          ((parseArguments readers limits now type rest).type = .invalid ∨
            (parseArguments readers limits now type rest).type = type) := by
        rw [parseArguments, hsymbol]
        dsimp only
        split
        · exact ⟨rfl, Or.inr rfl⟩
        · exact ⟨rfl, Or.inr rfl⟩
        · exact parseTerms_type cmd arguments
      obtain ⟨hkept, hinvalid | hsame⟩ := hcases
      · rw [hinvalid] at htype
        exact absurd htype (by simp [CommandType.toServer])
      · exact ⟨hsame.symm, hkept⟩

/-- The type of a command for the server is that of the first word of the line, and
its symbol is the second word. -/
theorem parseCommand_words {input : CString}
    (htype : (parseCommand readers limits now input).type ∈ CommandType.toServer) :
    ∃ command rest symbol arguments,
      OrderLoader.strtok isCommandDelimiter (OrderLoader.copyField 256 input) =
        some (command, rest) ∧
      OrderLoader.strtok isCommandDelimiter rest = some (symbol, arguments) ∧
      commandType command = (parseCommand readers limits now input).type ∧
      (parseCommand readers limits now input).symbol = symbol.take 15 := by
  cases hcommand : OrderLoader.strtok isCommandDelimiter (OrderLoader.copyField 256 input) with
  | none =>
      rw [parseCommand, hcommand] at htype
      exact absurd htype (by simp [Command.zero, CommandType.toServer])
  | some word =>
      obtain ⟨command, rest⟩ := word
      have hparse : parseCommand readers limits now input =
          parseArguments readers limits now (commandType command) rest := by
        rw [parseCommand, hcommand] at htype ⊢
        dsimp only at htype ⊢
        split at htype
        · exact absurd htype (by simp [Command.zero, CommandType.toServer])
        · exact absurd htype (by simp [Command.zero, CommandType.toServer])
        · exact absurd htype (by simp [Command.zero, CommandType.toServer])
        · rfl
      rw [hparse] at htype ⊢
      obtain ⟨symbol, arguments, hsymbol, hsame, hkept⟩ := parseArguments_words htype
      exact ⟨command, rest, symbol, arguments, rfl, hsymbol, hsame, hkept⟩

end Parsed

/-! ## Formatting -/

section Format

variable {α : Type} (cjson : CJson α)

/-- The JSON value of a BUY or SELL command. -/
def placeRoot (cmd : Command α) (traderId : CString) : Json α :=
  .object
    [("type".toList, .number (cjson.ofInt ClientMessageType.placeOrder.code)),
      ("order_id".toList, .string cmd.orderId), ("trader_id".toList, .string traderId),
      ("symbol".toList, .string cmd.symbol), ("price".toList, .number cmd.price),
      ("quantity".toList, .number (cjson.ofInt cmd.quantity)),
      ("is_buy".toList, .bool (cmd.type = .buy))]

/-- The JSON value of a VIEW command. -/
def viewRoot (cmd : Command α) : Json α :=
  .object
    [("type".toList, .number (cjson.ofInt ClientMessageType.requestBook.code)),
      ("symbol".toList, .string cmd.symbol)]

/-- The JSON value that `format_command_as_json` builds, `none` where it gives up. -/
def commandRoot (cmd : Command α) (traderId : CString) : Option (Json α) :=
  match cmd.type with
  | .buy | .sell => some (placeRoot cjson cmd traderId)
  | .view => some (viewRoot cjson cmd)
  | _ => none

/-- `format_command_as_json`, `none` when it returns `NULL`. -/
def formatCommandAsJson (cmd : Command α) (traderId : CString) : Option CString :=
  (commandRoot cjson cmd traderId).map cjson.print

end Format

end QuantTrading
