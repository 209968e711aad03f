import QuantTrading.Utils.HexNumerals
import QuantTrading.Utils.Tokens

/-! # The lines of an order file

A line of an order file has six fields: two ids, a symbol, a side, a price and a
quantity. `parse_order_line` takes the first six words of the line instead, cuts the
names to their buffers and reads as much of the numbers as it can. Both are compared:
the orders the format gives to a line, and the orders that are made of it.
-/

namespace QuantTrading

namespace OrderLoader

open CNumerals

/-! ## The call of `order_create` -/

/-- The arguments of `order_create`. -/
structure CreateArguments (α : Type) where
  orderId : CString
  traderId : CString
  symbol : CString
  price : α
  quantity : Int
  isBuyOrder : Bool
deriving DecidableEq

/-- The first six fields of a line, trimmed. -/
structure LineRecord where
  orderId : CString
  traderId : CString
  symbol : CString
  side : CString
  price : CString
  quantity : CString
deriving DecidableEq

namespace LineRecord

def fields (record : LineRecord) : List CString :=
  [record.orderId, record.traderId, record.symbol, record.side, record.price, record.quantity]

def ofFields : List CString → Option LineRecord
  | orderId :: traderId :: symbol :: side :: price :: quantity :: _ =>
      some ⟨orderId, traderId, symbol, side, price, quantity⟩
  | _ => none

theorem ofFields_eq_some_iff {fields : List CString} {record : LineRecord} :
    ofFields fields = some record ↔ ∃ others, fields = record.fields ++ others := by
  constructor
  · intro hfields
    unfold ofFields at hfields
    split at hfields
    · cases hfields
      exact ⟨_, rfl⟩
    · cases hfields
  · rintro ⟨others, rfl⟩
    rfl

/-- The arguments that `parse_order_line` makes of trimmed fields, if the price and the
quantity are positive. -/
def arguments {α : Type} [LE α] [DecidableLE α] [Zero α] (readers : NumeralReaders α)
    (record : LineRecord) : Option (CreateArguments α) :=
  if readers.atof record.price ≤ 0 then none
  else if readers.atoi record.quantity ≤ 0 then none
  else
    some
      { orderId := copyField maxIdLength record.orderId
        traderId := copyField maxIdLength record.traderId
        symbol := copyField maxSymbolLength record.symbol
        price := readers.atof record.price
        quantity := readers.atoi record.quantity
        isBuyOrder := equalIgnoringCase (copyField 10 record.side) "BUY".toList }

theorem arguments_isSome_iff {α : Type} [LE α] [DecidableLE α] [Zero α]
    (readers : NumeralReaders α) {record : LineRecord} :
    (record.arguments readers).isSome = true ↔
      ¬ readers.atof record.price ≤ 0 ∧ 0 < readers.atoi record.quantity := by
  unfold arguments
  split_ifs with hprice hquantity
  · simp [hprice]
  · simp [hquantity]
  · simp [hprice, not_le.mp hquantity]

end LineRecord

/-- The first six tokens of a line, trimmed. -/
def tokenRecord (fileType : FileType) (line : CString) : Option LineRecord :=
  LineRecord.ofFields ((Words.words (isDelimiter fileType) line).map trimWhitespace)

section Arguments

variable {α : Type}

/-- The call of `order_create`. -/
def CreateArguments.create (arguments : CreateArguments α) (now : Int) : Option (Order α) :=
  Order.create arguments.orderId arguments.traderId arguments.symbol arguments.price
    arguments.quantity arguments.isBuyOrder now

variable [LE α] [DecidableLE α] [Zero α]

/-- The arguments with which `parse_order_line` calls `order_create`, if it does. -/
def createArguments (readers : NumeralReaders α) (fileType : FileType) (line : CString) :
    Option (CreateArguments α) :=
  (tokenRecord fileType line).bind (LineRecord.arguments readers)

/-- `parse_order_line` is the call of `order_create` with these arguments. -/
theorem parseOrderLine_eq (readers : NumeralReaders α) (fileType : FileType) (now : Int)
    (line : CString) :
    parseOrderLine readers fileType now line =
      (createArguments readers fileType line).bind fun arguments => arguments.create now := by
  let finish (words : List CString) : Option (Order α) :=
    ((LineRecord.ofFields (words.map trimWhitespace)).bind (LineRecord.arguments readers)).bind
      fun arguments => arguments.create now
  unfold parseOrderLine
  refine bind_strtok finish rfl ?_
  intro orderId line
  refine bind_strtok (fun words => finish (orderId :: words)) rfl ?_
  intro traderId line
  refine bind_strtok (fun words => finish (orderId :: traderId :: words)) rfl ?_
  intro symbol line
  refine bind_strtok (fun words => finish (orderId :: traderId :: symbol :: words)) rfl ?_
  intro side line
  refine bind_strtok (fun words => finish (orderId :: traderId :: symbol :: side :: words)) rfl ?_
  intro priceText line
  -- the price is tested before the quantity is looked for
  by_cases hprice : readers.atof (trimWhitespace priceText) ≤ 0
  · dsimp only
    rw [if_pos hprice]
    cases Words.words (isDelimiter fileType) line with
    | nil => rfl
    | cons quantityText others =>
        change none = (LineRecord.arguments readers _).bind _
        rw [LineRecord.arguments, if_pos hprice, Option.bind_none]
  · dsimp only
    rw [if_neg hprice]
    refine bind_strtok
      (fun words => finish (orderId :: traderId :: symbol :: side :: priceText :: words)) rfl ?_
    intro quantityText line
    change _ = (LineRecord.arguments readers _).bind _
    rw [LineRecord.arguments, if_neg hprice]
    dsimp only
    by_cases hquantity : readers.atoi (trimWhitespace quantityText) ≤ 0
    · rw [if_pos hquantity, if_pos hquantity]
      rfl
    · rw [if_neg hquantity, if_neg hquantity]
      rfl

end Arguments

/-! ## The format -/

/-- The fields of a line: in a CSV file each comma ends one, in a TXT file each run of
blanks and tabs. -/
def lineFields : FileType → CString → List CString
  | .csv, line => line.splitOnP (isDelimiter .csv)
  | fileType, line => Words.words (isDelimiter fileType) line

/-- The first six fields of a line, trimmed. -/
def lineRecord (fileType : FileType) (line : CString) : Option LineRecord :=
  LineRecord.ofFields ((lineFields fileType line).map trimWhitespace)

/-- A name that a buffer of the given size holds. -/
def IsName (size : Nat) (name : CString) : Prop :=
  name ≠ [] ∧ name.length < size

/-- The two sides of an order. -/
def IsSide (side : CString) : Prop :=
  equalIgnoringCase side "BUY".toList = true ∨ equalIgnoringCase side "SELL".toList = true

instance (side : CString) : Decidable (IsSide side) :=
  inferInstanceAs (Decidable (_ ∨ _))

namespace LineRecord

/-- The fields of an order, as the format has them. -/
structure WellFormed (library : CNumeralLibrary) (record : LineRecord) (price : ℚ)
    (quantity : Int) : Prop where
  orderId : IsName maxIdLength record.orderId
  traderId : IsName maxIdLength record.traderId
  symbol : IsName maxSymbolLength record.symbol
  side : IsSide record.side
  price_denoted : ∃ value, Denotes record.price value ∧
    library.nearest value = ((price : WithTop ℚ) : OrderedDouble)
  price_pos : 0 < price
  quantity_denoted : ∃ integer : DecimalInteger, integer.text = record.quantity ∧
    integer.value = quantity
  quantity_pos : 0 < quantity
  quantity_le : quantity ≤ intMax

/-- The order that well-formed fields stand for. -/
def order (record : LineRecord) (price : ℚ) (quantity now : Int) : Order Double :=
  { orderId := record.orderId
    traderId := record.traderId
    symbol := record.symbol
    price := .number ((price : WithTop ℚ) : OrderedDouble)
    quantity := quantity
    remainingQuantity := quantity
    isBuyOrder := equalIgnoringCase record.side "BUY".toList
    timestamp := now
    isCanceled := false }

end LineRecord

/-- The order that a line of the format stands for. -/
def StandsFor (library : CNumeralLibrary) (fileType : FileType) (now : Int) (line : CString)
    (order : Order Double) : Prop :=
  ∃ record price quantity, lineRecord fileType line = some record ∧
    record.WellFormed library price quantity ∧ order = record.order price quantity now

/-- `parse_order_line` accepts the lines of the format and makes the orders of them that
they stand for. -/
def ParsesFormat (library : CNumeralLibrary) (fileType : FileType) (now : Int)
    (line : CString) : Prop :=
  ∀ order, parseOrderLine library.readers fileType now line = some order ↔
    StandsFor library fileType now line order

/-! ## The order of a call -/

theorem copyField_eq {size : Nat} {text : CString} (hfits : text.length < size) :
    copyField size text = text :=
  List.take_of_length_le (by omega)

theorem length_copyField_lt (size : Nat) (hsize : 0 < size) (text : CString) :
    (copyField size text).length < size := by
  rw [copyField, List.length_take]
  omega

/-- The arguments with which an order was created. -/
def CreateArguments.ofOrder {α : Type} (order : Order α) : CreateArguments α :=
  { orderId := order.orderId
    traderId := order.traderId
    symbol := order.symbol
    price := order.price
    quantity := order.quantity
    isBuyOrder := order.isBuyOrder }

section Created

variable {α : Type} [LE α] [DecidableLE α] [Zero α]

/-- The copies fit, so `order_create` refuses none of them. -/
theorem LineRecord.create_of_arguments {readers : NumeralReaders α} {record : LineRecord}
    {arguments : CreateArguments α} (harguments : record.arguments readers = some arguments)
    (now : Int) :
    ∃ order, arguments.create now = some order ∧ CreateArguments.ofOrder order = arguments := by
  unfold LineRecord.arguments at harguments
  split_ifs at harguments
  obtain rfl := Option.some.inj harguments
  have horderId := length_copyField_lt maxIdLength (by decide) record.orderId
  have htraderId := length_copyField_lt maxIdLength (by decide) record.traderId
  have hsymbol := length_copyField_lt maxSymbolLength (by decide) record.symbol
  rw [CreateArguments.create, Order.create]
  dsimp only
  rw [if_neg (by omega)]
  exact ⟨_, rfl, rfl⟩

/-- `parse_order_line` returns the order of the call it makes. -/
theorem map_parseOrderLine (readers : NumeralReaders α) (fileType : FileType) (now : Int)
    (line : CString) :
    (parseOrderLine readers fileType now line).map CreateArguments.ofOrder =
      createArguments readers fileType line := by
  rw [parseOrderLine_eq]
  cases hcall : createArguments readers fileType line with
  | none => rfl
  | some arguments =>
      obtain ⟨record, -, harguments⟩ := Option.bind_eq_some_iff.mp hcall
      obtain ⟨order, hcreate, horder⟩ := LineRecord.create_of_arguments harguments now
      rw [Option.bind_some, hcreate, Option.map_some, horder]

end Created

/-! ## Well-formed lines are accepted -/

theorem IsSide.ne_nil {side : CString} (hside : IsSide side) : side ≠ [] := by
  rintro rfl
  revert hside
  decide

theorem IsSide.length_le {side : CString} (hside : IsSide side) : side.length ≤ 4 := by
  simp only [IsSide, equalIgnoringCase, decide_eq_true_eq] at hside
  rcases hside with hbuy | hsell
  · have hlength := congrArg List.length hbuy
    simp only [List.length_map] at hlength
    exact hlength.trans_le (by decide)
  · have hlength := congrArg List.length hsell
    simp only [List.length_map] at hlength
    exact hlength.trans_le (by decide)

/-- Where none of the first six fields is blank, they are the first six tokens. -/
theorem tokenRecord_of_lineRecord {fileType : FileType} {line : CString} {record : LineRecord}
    (hrecord : lineRecord fileType line = some record) (hne : [] ∉ record.fields) :
    tokenRecord fileType line = some record := by
  cases fileType with
  | csv =>
      obtain ⟨others, hfields⟩ := LineRecord.ofFields_eq_some_iff.mp hrecord
      obtain ⟨first, rest, hsplit, hfirst, -⟩ := List.map_eq_append_iff.mp hfields
      have hkept : ∀ field ∈ first, (!field.isEmpty) = true := by
        intro field hfield
        rw [Bool.not_eq_true', List.isEmpty_eq_false_iff]
        rintro rfl
        rw [← hfirst] at hne
        exact hne (List.mem_map.mpr ⟨[], hfield, rfl⟩)
      rw [lineFields] at hsplit
      rw [tokenRecord, Words.words, hsplit, List.filter_append, List.filter_eq_self.mpr hkept,
        List.map_append, hfirst]
      rfl
  | txt => exact hrecord
  | unknown => exact hrecord

namespace LineRecord

variable {library : CNumeralLibrary} {record : LineRecord} {price : ℚ} {quantity : Int}

/-- A price passes the test of `parse_order_line` when it is positive. -/
theorem price_le_zero_iff (price : ℚ) :
    Double.number ((price : WithTop ℚ) : OrderedDouble) ≤ 0 ↔ price ≤ 0 := by
  change ((price : WithTop ℚ) : OrderedDouble) ≤ ((0 : ℚ) : WithTop ℚ) ↔ price ≤ 0
  rw [WithBot.coe_le_coe, WithTop.coe_le_coe]

theorem WellFormed.isInt (hformed : record.WellFormed library price quantity) :
    IsInt quantity :=
  ⟨(by decide : intMin ≤ 0).trans hformed.quantity_pos.le, hformed.quantity_le⟩

theorem WellFormed.nil_notMem (hformed : record.WellFormed library price quantity) :
    [] ∉ record.fields := by
  obtain ⟨value, hdenotes, -⟩ := hformed.price_denoted
  obtain ⟨integer, htext, -⟩ := hformed.quantity_denoted
  have hquantity : record.quantity ≠ [] := by
    rw [← htext, DecimalInteger.text]
    exact List.append_ne_nil_of_right_ne_nil _ integer.digits_ne
  simp [fields, hformed.orderId.1.symm, hformed.traderId.1.symm, hformed.symbol.1.symm,
    hformed.side.ne_nil.symm, hdenotes.ne_nil.symm, hquantity.symm]

/-- Well-formed fields are passed on as they are. -/
theorem WellFormed.arguments_eq (hformed : record.WellFormed library price quantity) :
    record.arguments library.readers = some
      { orderId := record.orderId
        traderId := record.traderId
        symbol := record.symbol
        price := .number ((price : WithTop ℚ) : OrderedDouble)
        quantity := quantity
        isBuyOrder := equalIgnoringCase record.side "BUY".toList } := by
  obtain ⟨value, hdenotes, hnearest⟩ := hformed.price_denoted
  obtain ⟨integer, htext, hvalue⟩ := hformed.quantity_denoted
  have hprice : library.readers.atof record.price =
      .number ((price : WithTop ℚ) : OrderedDouble) := by
    rw [← hnearest]
    exact library.atof_of_denotes hdenotes
  have hint := hformed.isInt
  have hquantity : library.readers.atoi record.quantity = quantity := by
    rw [← hvalue] at hint
    rw [← htext, ← hvalue]
    exact library.atoi_text integer hint
  have hpriceTest : ¬ Double.number ((price : WithTop ℚ) : OrderedDouble) ≤ 0 := by
    rw [price_le_zero_iff]
    exact hformed.price_pos.not_ge
  rw [arguments, hprice, if_neg hpriceTest, hquantity, if_neg hformed.quantity_pos.not_ge,
    copyField_eq hformed.orderId.2, copyField_eq hformed.traderId.2,
    copyField_eq hformed.symbol.2, copyField_eq (hformed.side.length_le.trans_lt (by decide))]

end LineRecord

/-! ## What is misread -/

/-- The ways in which the tokens of a line are not taken as they stand. -/
inductive Misread (library : CNumeralLibrary) (fileType : FileType) (line : CString)
    (record : LineRecord) : Prop where
  /-- An empty field is skipped. -/
  | skipped (hfields : lineRecord fileType line ≠ some record)
  /-- The order id is blank or cut. -/
  | orderId (hname : ¬ IsName maxIdLength record.orderId)
  /-- The trader id is blank or cut. -/
  | traderId (hname : ¬ IsName maxIdLength record.traderId)
  /-- The symbol is blank or cut. -/
  | symbol (hname : ¬ IsName maxSymbolLength record.symbol)
  /-- What is no side is taken for a sale. -/
  | side (hside : ¬ IsSide record.side)
  /-- The price starts with a number but is none, or it is NaN or infinite. -/
  | price (hprice : ∀ (value price : ℚ), Denotes record.price value →
      library.nearest value ≠ ((price : WithTop ℚ) : OrderedDouble))
  /-- The quantity starts with an integer but is none, or it is out of range. -/
  | quantity (hquantity : ∀ integer : DecimalInteger, integer.text = record.quantity →
      ¬ IsInt integer.value)

/-- A line that gets past the tests of the price and the quantity although it is misread. -/
def Misreads (library : CNumeralLibrary) (fileType : FileType) (line : CString) : Prop :=
  ∃ record, tokenRecord fileType line = some record ∧ ¬ library.atof record.price ≤ 0 ∧
    0 < library.atoi record.quantity ∧ Misread library fileType line record

theorem LineRecord.WellFormed.not_misread {library : CNumeralLibrary} {fileType : FileType}
    {line : CString} {record : LineRecord} {price : ℚ} {quantity : Int}
    (hformed : record.WellFormed library price quantity)
    (hrecord : lineRecord fileType line = some record) :
    ¬ Misread library fileType line record := by
  intro hmisread
  cases hmisread with
  | skipped hfields => exact hfields hrecord
  | orderId hname => exact hname hformed.orderId
  | traderId hname => exact hname hformed.traderId
  | symbol hname => exact hname hformed.symbol
  | side hside => exact hside hformed.side
  | price hprice =>
      obtain ⟨value, hdenotes, hnearest⟩ := hformed.price_denoted
      exact hprice value price hdenotes hnearest
  | quantity hquantity =>
      obtain ⟨integer, htext, hvalue⟩ := hformed.quantity_denoted
      apply hquantity integer htext
      rw [hvalue]
      exact hformed.isInt

/-- Tokens that pass the tests and are taken as they stand are well formed. -/
theorem wellFormed_of_not_misread {library : CNumeralLibrary} {fileType : FileType}
    {line : CString} {record : LineRecord} (hprice : ¬ library.atof record.price ≤ 0)
    (hquantity : 0 < library.atoi record.quantity)
    (hread : ¬ Misread library fileType line record) :
    lineRecord fileType line = some record ∧
      ∃ price quantity, record.WellFormed library price quantity := by
  have hrecord : lineRecord fileType line = some record := by
    by_contra hfields
    exact hread (.skipped hfields)
  have hdenoted : ∃ value price : ℚ, Denotes record.price value ∧
      library.nearest value = ((price : WithTop ℚ) : OrderedDouble) := by
    by_contra hnone
    push Not at hnone
    exact hread (.price hnone)
  have hinteger : ∃ integer : DecimalInteger, integer.text = record.quantity ∧
      IsInt integer.value := by
    by_contra hnone
    push Not at hnone
    exact hread (.quantity hnone)
  obtain ⟨value, price, hdenotes, hnearest⟩ := hdenoted
  obtain ⟨integer, htext, hint⟩ := hinteger
  rw [library.atof_of_denotes hdenotes, hnearest, LineRecord.price_le_zero_iff, not_le] at hprice
  rw [← htext, library.atoi_text integer hint] at hquantity
  refine ⟨hrecord, price, integer.value, ?_, ?_, ?_, ?_, ⟨value, hdenotes, hnearest⟩, hprice,
    ⟨integer, htext, rfl⟩, hquantity, hint.2⟩
  · by_contra hname
    exact hread (.orderId hname)
  · by_contra hname
    exact hread (.traderId hname)
  · by_contra hname
    exact hread (.symbol hname)
  · by_contra hside
    exact hread (.side hside)

/-- What is made of well-formed fields is the order they stand for. -/
theorem parseOrderLine_of_wellFormed {library : CNumeralLibrary} {fileType : FileType}
    {line : CString} {record : LineRecord} {price : ℚ} {quantity : Int} (now : Int)
    (htokens : tokenRecord fileType line = some record)
    (hformed : record.WellFormed library price quantity) :
    parseOrderLine library.readers fileType now line =
      some (record.order price quantity now) := by
  have hfits : ¬ (maxIdLength ≤ record.orderId.length ∨ maxIdLength ≤ record.traderId.length ∨
      maxSymbolLength ≤ record.symbol.length) := by
    have horderId := hformed.orderId.2
    have htraderId := hformed.traderId.2
    have hsymbol := hformed.symbol.2
    omega
  rw [parseOrderLine_eq, createArguments, htokens, Option.bind_some, hformed.arguments_eq,
    Option.bind_some, CreateArguments.create, Order.create]
  exact if_neg hfits

/-- `parse_order_line` meets its format on exactly the lines that are not misread. -/
theorem parsesFormat_iff (library : CNumeralLibrary) (fileType : FileType) (now : Int)
    (line : CString) :
    ParsesFormat library fileType now line ↔ ¬ Misreads library fileType line := by
  constructor
  · rintro hparses ⟨record, htokens, hprice, hquantity, hmisread⟩
    -- the tests are passed, so an order is made
    obtain ⟨arguments, harguments⟩ := Option.isSome_iff_exists.mp
      ((LineRecord.arguments_isSome_iff library.readers).mpr ⟨hprice, hquantity⟩)
    obtain ⟨order, horder, -⟩ := LineRecord.create_of_arguments harguments now
    have hparse : parseOrderLine library.readers fileType now line = some order := by
      rw [parseOrderLine_eq, createArguments, htokens, Option.bind_some, harguments,
        Option.bind_some, horder]
    obtain ⟨record', price, quantity, hrecord, hformed, -⟩ := (hparses order).mp hparse
    have hsame := htokens.symm.trans (tokenRecord_of_lineRecord hrecord hformed.nil_notMem)
    cases hsame
    exact hformed.not_misread hrecord hmisread
  · intro hread order
    constructor
    · intro hparse
      have hcreate := hparse
      rw [parseOrderLine_eq, createArguments] at hcreate
      obtain ⟨arguments, harguments, -⟩ := Option.bind_eq_some_iff.mp hcreate
      obtain ⟨record, htokens, harguments⟩ := Option.bind_eq_some_iff.mp harguments
      obtain ⟨hprice, hquantity⟩ := (LineRecord.arguments_isSome_iff _).mp
        (Option.isSome_iff_exists.mpr ⟨arguments, harguments⟩)
      obtain ⟨hrecord, price, quantity, hformed⟩ := wellFormed_of_not_misread hprice hquantity
        fun hmisread => hread ⟨record, htokens, hprice, hquantity, hmisread⟩
      have hmade := parseOrderLine_of_wellFormed now htokens hformed
      exact ⟨record, price, quantity, hrecord, hformed,
        Option.some.inj (hparse.symm.trans hmade)⟩
    · rintro ⟨record, price, quantity, hrecord, hformed, rfl⟩
      exact parseOrderLine_of_wellFormed now
        (tokenRecord_of_lineRecord hrecord hformed.nil_notMem) hformed

/-- A line of a CSV file with the side `HOLD` becomes a sale. -/
theorem unknown_side_sells :
    ¬ ParsesFormat ⟨fun value => ((value : WithTop ℚ) : OrderedDouble), fun _ => 0⟩ .csv 0
      "A,T,AAPL,HOLD,10,5".toList := by
  intro hparses
  have hsale := (hparses
    { orderId := "A".toList, traderId := "T".toList, symbol := "AAPL".toList
      price := .number (((10 : ℚ) : WithTop ℚ) : OrderedDouble), quantity := 5
      remainingQuantity := 5, isBuyOrder := false, timestamp := 0, isCanceled := false }).mp
    (by decide +kernel)
  obtain ⟨record, price, quantity, hrecord, hformed, -⟩ := hsale
  have hfields : lineRecord .csv "A,T,AAPL,HOLD,10,5".toList =
      some ⟨"A".toList, "T".toList, "AAPL".toList, "HOLD".toList, "10".toList, "5".toList⟩ := by
    decide +kernel
  rw [hfields] at hrecord
  cases hrecord
  have hside := hformed.side
  revert hside
  decide

end OrderLoader

end QuantTrading
