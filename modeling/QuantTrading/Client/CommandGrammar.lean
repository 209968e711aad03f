import QuantTrading.Client.ClientCommands
import QuantTrading.Utils.CNumerals
import QuantTrading.Utils.Tokens

/-! # The grammar of orders

`print_command_help` shows an order as a word, a symbol, a price and a quantity. What
`parse_command` accepts is stated over the words of the first 255 characters, and is
compared with the lines that have exactly this form.
-/

namespace QuantTrading

/-- The words of a command line. -/
def commandWords (input : CString) : List CString :=
  Words.words isCommandDelimiter input

/-- The type of a command that places an order. -/
def orderType (isBuy : Bool) : CommandType :=
  if isBuy then .buy else .sell

/-- The word of a command that places an order. -/
def orderWord (isBuy : Bool) : CString :=
  if isBuy then "BUY".toList else "SELL".toList

theorem commandType_eq_orderType_iff {token : CString} {isBuy : Bool} :
    commandType token = orderType isBuy ↔
      OrderLoader.equalIgnoringCase token (orderWord isBuy) = true := by
  cases isBuy with
  | true =>
      unfold commandType orderType orderWord
      split_ifs <;> simp_all
  | false =>
      unfold commandType orderType orderWord
      simp only [Bool.false_eq_true, if_false]
      split_ifs with hbuy hsell
      -- a word is not both BUY and SELL
      · rw [OrderLoader.equalIgnoringCase, decide_eq_true_eq] at hbuy
        rw [OrderLoader.equalIgnoringCase, hbuy]
        simp
      all_goals simp_all

/-! ## What is accepted -/

section Accepted

variable {α : Type} [LT α] [DecidableLT α]

/-- The tests that `parse_command` makes of the words of an order. -/
structure ReadsAsOrder (readers : NumeralReaders α) (limits : PriceLimits α) (isBuy : Bool)
    (word price quantity : CString) : Prop where
  word : commandType word = orderType isBuy
  price : validatePrice limits (readers.atof price) = true
  quantity : validateQuantity (readers.atoi quantity) = true

variable {readers : NumeralReaders α} {limits : PriceLimits α} {now : TimeT}

variable (now) in
/-- The terms of an order are accepted when the next two words are. -/
theorem parseTerms_of_words (cmd : Command α) {rest price quantity : CString}
    {others : List CString} (hwords : commandWords rest = price :: quantity :: others)
    (hprice : validatePrice limits (readers.atof price) = true)
    (hquantity : validateQuantity (readers.atoi quantity) = true) :
    parseTerms readers limits now cmd rest =
      { cmd with
        price := readers.atof price
        quantity := readers.atoi quantity
        orderId := generateOrderId now 32 } := by
  obtain ⟨rest', hfirst, hrest⟩ := OrderLoader.strtok_of_words hwords
  obtain ⟨_, hsecond, _⟩ := OrderLoader.strtok_of_words hrest
  simp [parseTerms, hfirst, hsecond, hprice, hquantity]

/-- Terms that are accepted are two words that pass the tests. -/
theorem words_of_parseTerms {cmd : Command α} {rest : CString}
    (htype : (parseTerms readers limits now cmd rest).type ≠ .invalid) :
    ∃ price quantity others, commandWords rest = price :: quantity :: others ∧
      validatePrice limits (readers.atof price) = true ∧
      validateQuantity (readers.atoi quantity) = true := by
  unfold parseTerms at htype
  split at htype
  · exact absurd rfl htype
  next price rest' hprice =>
    dsimp only at htype
    split_ifs at htype with hvalid
    · exact absurd rfl htype
    split at htype
    · exact absurd rfl htype
    next quantity rest'' hquantity =>
      split_ifs at htype with hvalid'
      · exact absurd rfl htype
      · refine ⟨price, quantity, commandWords rest'', ?_, by simpa using hvalid,
          by simpa using hvalid'⟩
        rw [commandWords, OrderLoader.words_of_strtok hprice,
          OrderLoader.words_of_strtok hquantity]
        rfl

variable [Zero α]

variable (now) in
/-- An order is accepted when the first four words of the buffer pass the tests. -/
theorem parseCommand_of_words {input word symbol price quantity : CString}
    {others : List CString} {isBuy : Bool}
    (hwords : commandWords (input.take 255) = word :: symbol :: price :: quantity :: others)
    (hreads : ReadsAsOrder readers limits isBuy word price quantity) :
    parseCommand readers limits now input =
      { type := orderType isBuy
        symbol := symbol.take 15
        price := readers.atof price
        quantity := readers.atoi quantity
        orderId := generateOrderId now 32 } := by
  obtain ⟨rest, hword, hrest⟩ := OrderLoader.strtok_of_words hwords
  obtain ⟨rest', hsymbol, hrest'⟩ := OrderLoader.strtok_of_words hrest
  have htake : OrderLoader.copyField 256 input = input.take 255 := rfl
  have hterms := fun cmd => parseTerms_of_words now cmd hrest' hreads.price
    hreads.quantity
  rw [parseCommand, htake, hword]
  dsimp only
  rw [hreads.word]
  cases isBuy with
  | true =>
      simp only [orderType, if_true, parseArguments, hsymbol, hterms]
      rfl
  | false =>
      simp only [orderType, Bool.false_eq_true, if_false, parseArguments, hsymbol, hterms]
      rfl

/-- When an order is accepted, the first four words of the buffer pass the tests. -/
theorem words_of_parseCommand {input : CString} {isBuy : Bool}
    (htype : (parseCommand readers limits now input).type = orderType isBuy) :
    ∃ word symbol price quantity others,
      commandWords (input.take 255) = word :: symbol :: price :: quantity :: others ∧
      ReadsAsOrder readers limits isBuy word price quantity := by
  have hserver : orderType isBuy ∈ CommandType.toServer := by cases isBuy <;> decide
  obtain ⟨word, rest, symbol, arguments, hword, hsymbol, hcommand, -⟩ :=
    parseCommand_words (by rw [htype]; exact hserver)
  have hparse : parseCommand readers limits now input = parseTerms readers limits now
      { (Command.zero (orderType isBuy) : Command α) with
        symbol := OrderLoader.copyField 16 symbol } arguments := by
    rw [htype] at hcommand
    rw [parseCommand, hword]
    dsimp only
    rw [hcommand]
    cases isBuy with
    | true => simp only [orderType, if_true, parseArguments, hsymbol]
    | false => simp only [orderType, Bool.false_eq_true, if_false, parseArguments, hsymbol]
  have hvalid : orderType isBuy ≠ .invalid := by cases isBuy <;> decide
  obtain ⟨price, quantity, others, hwords, hprice, hquantity⟩ :=
    words_of_parseTerms (by rw [← hparse, htype]; exact hvalid)
  refine ⟨word, symbol, price, quantity, others, ?_, hcommand.trans htype, hprice, hquantity⟩
  have hfirst : commandWords (input.take 255) = word :: commandWords rest :=
    OrderLoader.words_of_strtok hword
  have hsecond : commandWords rest = symbol :: commandWords arguments :=
    OrderLoader.words_of_strtok hsymbol
  rw [hfirst, hsecond, hwords]

end Accepted

/-! ## Lines of the grammar -/

section Grammar

open CNumerals

/-- `MIN_PRICE` and `MAX_PRICE` as doubles. -/
def CNumeralLibrary.limits (library : CNumeralLibrary) : PriceLimits Double where
  minPrice := .number (library.nearest (1 / 10000))
  maxPrice := .number (library.nearest 1000000)

variable (library : CNumeralLibrary)

/-- A line that is an order: the word, then exactly a symbol, a price and a quantity, with
values in range. -/
structure IsOrderLine (isBuy : Bool) (input symbol : CString) (price : Double)
    (quantity : Int) : Prop where
  words : ∃ word priceWord quantityWord,
    commandWords input = [word, symbol, priceWord, quantityWord] ∧
    OrderLoader.equalIgnoringCase word (orderWord isBuy) = true ∧
    (∃ numeral : DecimalNumeral, numeral.text = priceWord ∧
      price = .number (library.nearest numeral.value)) ∧
    ∃ integer : DecimalInteger, integer.text = quantityWord ∧ quantity = integer.value
  symbol_fits : symbol.length ≤ 15
  price_min : library.limits.minPrice ≤ price
  price_max : price ≤ library.limits.maxPrice
  quantity_min : minQuantity ≤ quantity
  quantity_max : quantity ≤ maxQuantity

/-- `parse_command` of a line. -/
def CNumeralLibrary.parse (now : TimeT) (input : CString) : Command Double :=
  parseCommand library.readers library.limits now input

/-- `parse_command` takes a line for an order exactly when it is one, and then returns the
values of its words. -/
def MeetsGrammar (now : TimeT) (input : CString) : Prop :=
  ∀ isBuy,
    ((library.parse now input).type = orderType isBuy ↔
      ∃ symbol price quantity, IsOrderLine library isBuy input symbol price quantity) ∧
    ∀ symbol price quantity, IsOrderLine library isBuy input symbol price quantity →
      (library.parse now input).symbol = symbol ∧ (library.parse now input).price = price ∧
        (library.parse now input).quantity = quantity

/-- A line in which nothing is overlooked. When the first 255 characters pass the tests for
an order, then its words are the whole line and each of them is read as a whole; and when
the line is an order, its words end within the first 255 characters. -/
structure ReadAsWhole (input : CString) : Prop where
  whole : ∀ isBuy word symbol price quantity others,
    commandWords (input.take 255) = word :: symbol :: price :: quantity :: others →
    ReadsAsOrder library.readers library.limits isBuy word price quantity →
    others = [] ∧ (∀ c ∈ input.drop 255, isCommandDelimiter c = true) ∧
      symbol.length ≤ 15 ∧ (∃ numeral : DecimalNumeral, numeral.text = price) ∧
      ∃ integer : DecimalInteger, integer.text = quantity ∧ IsInt integer.value
  fits : ∀ isBuy symbol price quantity, IsOrderLine library isBuy input symbol price quantity →
    ∀ c ∈ input.drop 255, isCommandDelimiter c = true

variable {library} {now : TimeT} {input : CString}

/-- Within its range a price passes the test. -/
theorem validatePrice_number_iff {limits : PriceLimits Double} {least most value : OrderedDouble}
    (hmin : limits.minPrice = .number least) (hmax : limits.maxPrice = .number most) :
    validatePrice limits (.number value) = true ↔
      limits.minPrice ≤ .number value ∧ .number value ≤ limits.maxPrice := by
  simp [validatePrice, hmin, hmax]

theorem isInt_of_quantity {quantity : Int} (hmin : minQuantity ≤ quantity)
    (hmax : quantity ≤ maxQuantity) : IsInt quantity := by
  unfold minQuantity at hmin
  unfold maxQuantity at hmax
  unfold IsInt intMin intMax
  omega

/-- The values read from an order that is read as a whole. -/
theorem IsOrderLine.of_words {isBuy : Bool} {word symbol price quantity : CString}
    (hwords : commandWords input = [word, symbol, price, quantity])
    (hreads : ReadsAsOrder library.readers library.limits isBuy word price quantity)
    (hsymbol : symbol.length ≤ 15) (hprice : ∃ numeral : DecimalNumeral, numeral.text = price)
    (hquantity : ∃ integer : DecimalInteger, integer.text = quantity ∧ IsInt integer.value) :
    IsOrderLine library isBuy input symbol (library.atof price) (library.atoi quantity) := by
  obtain ⟨numeral, rfl⟩ := hprice
  obtain ⟨integer, rfl, hint⟩ := hquantity
  have hvalue := library.atof_text numeral
  have hinteger := library.atoi_text integer hint
  have hpriceValid := hreads.price
  have hquantityValid := hreads.quantity
  simp only [CNumeralLibrary.readers] at hpriceValid hquantityValid
  rw [hvalue, validatePrice_number_iff rfl rfl] at hpriceValid
  rw [validateQuantity_iff] at hquantityValid
  refine ⟨⟨word, numeral.text, integer.text, hwords, ?_, ⟨numeral, rfl, hvalue⟩, integer, rfl,
    hinteger⟩, hsymbol, ?_, ?_, hquantityValid.1, hquantityValid.2⟩
  · exact commandType_eq_orderType_iff.mp hreads.word
  · rw [hvalue]
    exact hpriceValid.1
  · rw [hvalue]
    exact hpriceValid.2

/-- The words of a line of the grammar, which pass the tests and are read with their
values. -/
theorem IsOrderLine.reads {isBuy : Bool} {symbol : CString} {price : Double} {quantity : Int}
    (hline : IsOrderLine library isBuy input symbol price quantity) :
    ∃ word priceWord, ∃ integer : DecimalInteger,
      commandWords input = [word, symbol, priceWord, integer.text] ∧
      ReadsAsOrder library.readers library.limits isBuy word priceWord integer.text ∧
      library.atof priceWord = price ∧ library.atoi integer.text = quantity ∧
      (∃ numeral : DecimalNumeral, numeral.text = priceWord) ∧ integer.value = quantity := by
  obtain ⟨word, _, _, hwords, hword, ⟨numeral, rfl, rfl⟩, integer, rfl, rfl⟩ := hline.words
  have hvalue := library.atof_text numeral
  have hinteger := library.atoi_text integer
    (isInt_of_quantity hline.quantity_min hline.quantity_max)
  refine ⟨word, numeral.text, integer, hwords, ⟨?_, ?_, ?_⟩, hvalue, hinteger,
    ⟨numeral, rfl⟩, rfl⟩
  · exact commandType_eq_orderType_iff.mpr hword
  · simp only [CNumeralLibrary.readers, hvalue]
    exact (validatePrice_number_iff rfl rfl).mpr ⟨hline.price_min, hline.price_max⟩
  · simp only [CNumeralLibrary.readers, hinteger]
    exact validateQuantity_iff.mpr ⟨hline.quantity_min, hline.quantity_max⟩

/-- The words of a line whose words end within the first 255 characters. -/
theorem commandWords_take (hdrop : ∀ c ∈ input.drop 255, isCommandDelimiter c = true) :
    commandWords input = commandWords (input.take 255) := by
  have happend := Words.words_append_delimiters (input.take 255) hdrop
  rw [List.take_append_drop] at happend
  exact happend

/-- An order whose words end within the first 255 characters is parsed into its values. -/
theorem IsOrderLine.parse_eq {isBuy : Bool} {symbol : CString} {price : Double}
    {quantity : Int} (hline : IsOrderLine library isBuy input symbol price quantity)
    (hdrop : ∀ c ∈ input.drop 255, isCommandDelimiter c = true) :
    library.parse now input =
      { type := orderType isBuy
        symbol := symbol
        price := price
        quantity := quantity
        orderId := generateOrderId now 32 } := by
  obtain ⟨word, priceWord, integer, hwords, hreads, rfl, rfl, -, -⟩ := hline.reads
  rw [commandWords_take hdrop] at hwords
  rw [CNumeralLibrary.parse, parseCommand_of_words now hwords hreads,
    List.take_of_length_le hline.symbol_fits]
  rfl

variable (library) in
/-- A quantity that is cut off is not read with its value. -/
theorem atoi_cut_ne {integer : DecimalInteger} {cut more : CString}
    (hcut : integer.text = cut ++ more) (hmore : more ≠ []) (hmin : minQuantity ≤ integer.value)
    (hmax : integer.value ≤ maxQuantity) : library.atoi cut ≠ integer.value := by
  have hpos : 0 < integer.value := by
    unfold minQuantity at hmin
    omega
  obtain ⟨hlower, hupper⟩ := readInteger_of_cut integer hcut hmore hpos
  have hchars : ∀ c ∈ cut, numeralChar c = true := by
    intro c hc
    apply integer.numeralChar_text
    rw [hcut]
    exact List.mem_append_left _ hc
  have hint : IsInt (readInteger cut) := by
    have hvalue := isInt_of_quantity hmin hmax
    have hzero : intMin ≤ 0 := by decide
    exact ⟨hzero.trans hlower, hupper.le.trans hvalue.2⟩
  rw [CNumeralLibrary.atoi, dropWhile_isSpace_of_numeralChar hchars]
  simp only [if_pos hint]
  exact hupper.ne

/-- When the first 255 characters of an order pass the tests and are read with the values
of the order, then they hold all of its words. -/
theorem words_end_in_buffer {isBuy : Bool} {symbol : CString} {price : Double} {quantity : Int}
    (hline : IsOrderLine library isBuy input symbol price quantity)
    {word cutSymbol cutPrice cutQuantity : CString} {others : List CString}
    (hwords : commandWords (input.take 255) =
      word :: cutSymbol :: cutPrice :: cutQuantity :: others)
    (hquantity : library.atoi cutQuantity = quantity) :
    commandWords input = [word, cutSymbol, cutPrice, cutQuantity] ∧ others = [] ∧
      ∀ c ∈ input.drop 255, isCommandDelimiter c = true := by
  obtain ⟨lineWord, priceWord, integer, hlineWords, -, -, -, -, hvalue⟩ := hline.reads
  have hsplit : commandWords input =
      Words.words isCommandDelimiter (input.take 255 ++ input.drop 255) := by
    rw [List.take_append_drop]
    rfl
  rcases Words.words_append isCommandDelimiter (input.take 255)
    (input.drop 255) with hjoin | ⟨init, last, more, rest, hfirst, -, hmore, hjoin⟩
  · rw [← hsplit, hlineWords] at hjoin
    change _ = commandWords (input.take 255) ++ _ at hjoin
    rw [hwords] at hjoin
    have hlength := congrArg List.length hjoin
    simp only [List.length_append, List.length_cons, List.length_nil] at hlength
    have hothers : others = [] := List.length_eq_zero_iff.mp (by omega)
    have hnil : Words.words isCommandDelimiter (input.drop 255) = [] :=
      List.length_eq_zero_iff.mp (by omega)
    refine ⟨?_, hothers, Words.words_eq_nil_iff.mp hnil⟩
    rw [hlineWords, hjoin, hothers, hnil, List.append_nil]
  -- the quantity would go on after the first 255 characters
  · exfalso
    change commandWords (input.take 255) = _ at hfirst
    rw [← hsplit, hlineWords] at hjoin
    rw [hwords] at hfirst
    have hlengths := congrArg List.length hjoin
    have hlengths' := congrArg List.length hfirst
    simp only [List.length_append, List.length_cons, List.length_nil] at hlengths hlengths'
    have hrest : rest = [] := List.length_eq_zero_iff.mp (by omega)
    have hothers : others = [] := List.length_eq_zero_iff.mp (by omega)
    subst hrest hothers
    have hlast : [cutQuantity] = [last] :=
      (List.append_inj' (show [word, cutSymbol, cutPrice] ++ [cutQuantity] = init ++ [last]
        from hfirst) rfl).2
    have hcut : [integer.text] = [last ++ more] :=
      (List.append_inj' (show [lineWord, symbol, priceWord] ++ [integer.text] =
        init ++ [last ++ more] from hjoin) rfl).2
    cases hlast
    refine atoi_cut_ne library (List.cons.inj hcut).1 hmore ?_ ?_
      (hquantity.trans hvalue.symm)
    · rw [hvalue]
      exact hline.quantity_min
    · rw [hvalue]
      exact hline.quantity_max

/-- `parse_command` meets the grammar on exactly the lines in which it overlooks nothing. -/
theorem parseCommand_meetsGrammar_iff (library : CNumeralLibrary) (now : TimeT)
    (input : CString) : MeetsGrammar library now input ↔ ReadAsWhole library input := by
  constructor
  · intro hmeets
    have hwhole : ∀ isBuy word symbol price quantity others,
        commandWords (input.take 255) = word :: symbol :: price :: quantity :: others →
        ReadsAsOrder library.readers library.limits isBuy word price quantity →
        others = [] ∧ (∀ c ∈ input.drop 255, isCommandDelimiter c = true) ∧
          symbol.length ≤ 15 ∧ (∃ numeral : DecimalNumeral, numeral.text = price) ∧
          ∃ integer : DecimalInteger, integer.text = quantity ∧ IsInt integer.value := by
      intro isBuy word symbol price quantity others hwords hreads
      have hparse := parseCommand_of_words now hwords hreads
      obtain ⟨symbol', price', quantity', hline⟩ :=
        (hmeets isBuy).1.mp (congrArg Command.type hparse)
      obtain ⟨-, -, hquantity⟩ := (hmeets isBuy).2 _ _ _ hline
      have hread : library.atoi quantity = quantity' :=
        (congrArg Command.quantity hparse).symm.trans hquantity
      obtain ⟨hsame, hothers, hdrop⟩ := words_end_in_buffer hline hwords hread
      obtain ⟨_, _, integer, hlineWords, -, -, -, hnumeral, hvalue⟩ := hline.reads
      rw [hlineWords] at hsame
      cases hsame
      refine ⟨hothers, hdrop, hline.symbol_fits, hnumeral, integer, rfl, ?_⟩
      rw [hvalue]
      exact isInt_of_quantity hline.quantity_min hline.quantity_max
    refine ⟨hwhole, ?_⟩
    intro isBuy symbol price quantity hline
    obtain ⟨word, symbol', price', quantity', others, hwords, hreads⟩ :=
      words_of_parseCommand ((hmeets isBuy).1.mpr ⟨symbol, price, quantity, hline⟩)
    exact (hwhole isBuy word symbol' price' quantity' others hwords hreads).2.1
  · intro hwhole isBuy
    refine ⟨⟨?_, ?_⟩, ?_⟩
    · intro htype
      obtain ⟨word, symbol, price, quantity, others, hwords, hreads⟩ :=
        words_of_parseCommand htype
      obtain ⟨rfl, hdrop, hsymbol, hprice, hquantity⟩ :=
        hwhole.whole isBuy word symbol price quantity others hwords hreads
      have hline := (commandWords_take hdrop).trans hwords
      exact ⟨symbol, _, _, IsOrderLine.of_words hline hreads hsymbol hprice hquantity⟩
    · rintro ⟨symbol, price, quantity, hline⟩
      rw [hline.parse_eq (hwhole.fits _ _ _ _ hline)]
    · intro symbol price quantity hline
      rw [hline.parse_eq (hwhole.fits _ _ _ _ hline)]
      exact ⟨rfl, rfl, rfl⟩

/-- A line with the price `nan` is taken for an order, for which no price is in range. -/
theorem nan_price_is_accepted :
    ¬ MeetsGrammar ⟨fun value => ((value : WithTop ℚ) : OrderedDouble), fun _ => 0⟩
      ⟨0, by decide, by decide⟩ "BUY AAPL nan 5".toList := by
  intro hmeets
  obtain ⟨symbol, price, quantity, hline⟩ := (hmeets true).1.mp (by decide +kernel)
  obtain ⟨_, _, _, hwords, -, ⟨numeral, htext, -⟩, -⟩ := hline.words
  have hexpected : commandWords "BUY AAPL nan 5".toList =
      ["BUY".toList, "AAPL".toList, "nan".toList, "5".toList] := by decide +kernel
  rw [hexpected] at hwords
  have hnan : numeral.text = "nan".toList := by
    rw [htext]
    exact (List.cons.inj (List.cons.inj (List.cons.inj hwords).2).2).1.symm
  have hread := strtod_text numeral
  rw [hnan] at hread
  have hnone : strtod "nan".toList = .nan := by decide
  rw [hnone] at hread
  cases hread

end Grammar

end QuantTrading
