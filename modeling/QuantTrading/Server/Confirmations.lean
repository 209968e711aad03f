import QuantTrading.Client.ClientApp
import QuantTrading.Client.ClientCommands
import QuantTrading.Protocol.JsonForms
import QuantTrading.Server.OrderAddressing
import QuantTrading.Utils.CNumerals

/-! # Confirmations

The texts that `handle_place_order` and `handle_cancel_order` format with `snprintf`, and
what can be read from them. The strings of a message are put between quotes as they are.
-/

namespace QuantTrading

open JsonText

/-! ## The C library functions used -/

/-- The size of `response`. -/
def responseSize : Nat := 1024

/-- A `double` as `%.2f` rounds it. A finite one has at most 309 digits before the
point. -/
inductive RoundedPrice where
  | finite (negative : Bool) (hundredths : Nat) (bound : (Nat.toDigits 10 hundredths).length ≤ 311)
  | infinite (negative : Bool)
  | nan (negative : Bool)

def printSign (negative : Bool) : CString :=
  if negative then ['-'] else []

/-- The conversion `%.2f` of `printf`. -/
def RoundedPrice.print : RoundedPrice → CString
  | finite negative hundredths _ =>
      printSign negative ++ (Nat.toDigits 10 (hundredths / 100) ++
        ['.', (hundredths / 10 % 10).digitChar, (hundredths % 10).digitChar])
  | infinite negative => printSign negative ++ "inf".toList
  | nan negative => printSign negative ++ "nan".toList

def RoundedPrice.IsFinite : RoundedPrice → Prop
  | finite _ _ _ => True
  | _ => False

def isTimestampChar (c : Char) : Bool :=
  c.isDigit || "-: ".toList.contains c

/-- What `strftime` leaves in a buffer of 64 characters for `%Y-%m-%d %H:%M:%S`. -/
structure TimestampText where
  text : CString
  characters : text.all isTimestampChar = true
  fits : text.length < 64

/-- What the formats depend on besides the order: how a price is rounded, and the local
time of a reading of the clock. -/
structure ResponsePrinter (α : Type) where
  rounded : α → RoundedPrice
  localtime : Int → TimestampText

/-! ## The formats -/

section Formats

variable {α : Type} (printer : ResponsePrinter α)

/-- The side of an order in a confirmation. -/
def sideText (isBuy : Bool) : CString :=
  if isBuy then "Buy".toList else "Sell".toList

/-- The format of `handle_place_order`. -/
def acceptedText (order : OrderMessage α) (timestamp : Int) : CString :=
  printObject 0
    [⟨"type", 1, printLong ServerMessageType.orderAccepted.code⟩,
      ⟨"Trade Details", 1, printObject 4
        [⟨"Type", 10, quoted (sideText order.isBuy)⟩,
          ⟨"Order ID", 6, quoted order.orderId⟩,
          ⟨"Trader ID", 5, quoted order.traderId⟩,
          ⟨"Symbol", 8, quoted order.symbol⟩,
          ⟨"Price", 9, (printer.rounded order.price).print⟩,
          ⟨"Quantity", 6, printLong order.quantity⟩]⟩,
      ⟨"Timestamp", 5, quoted (printer.localtime timestamp).text⟩,
      ⟨"status", 8, quoted "success".toList⟩]

/-- The format of `handle_cancel_order`. -/
def canceledText (orderId symbol : CString) (timestamp : Int) : CString :=
  printObject 0
    [⟨"type", 1, printLong ServerMessageType.orderCanceled.code⟩,
      ⟨"Cancellation Details", 1, printObject 4
        [⟨"Order ID", 6, quoted orderId⟩,
          ⟨"Symbol", 8, quoted symbol⟩]⟩,
      ⟨"Timestamp", 5, quoted (printer.localtime timestamp).text⟩,
      ⟨"status", 8, quoted "success".toList⟩]

/-- The `response` of a confirmation. -/
def acceptedResponse (order : OrderMessage α) (timestamp : Int) : CString :=
  snprintf responseSize (acceptedText printer order timestamp)

def canceledResponse (orderId symbol : CString) (timestamp : Int) : CString :=
  snprintf responseSize (canceledText printer orderId symbol timestamp)

end Formats

/-- One moment of one day. -/
def sampleTimestamp : TimestampText where
  text := "2024-01-31 12:00:00".toList
  characters := by decide
  fits := by decide

/-- The cancel format of the source with its values put in. -/
example : canceledText (⟨fun _ : ℚ => .nan false, fun _ => sampleTimestamp⟩) "A1".toList
    "AAPL".toList 0 =
    ("\x7b\n    \"type\": 103,\n    \"Cancellation Details\": \x7b\n" ++
      "        \"Order ID\":      \"A1\",\n        \"Symbol\":        \"AAPL\"\n    \x7d,\n" ++
      "    \"Timestamp\":     \"2024-01-31 12:00:00\",\n" ++
      "    \"status\":        \"success\"\n\x7d").toList := by decide +kernel

/-! ## Numbers in the formats -/

section Numbers

variable {α : Type} {ofNumeral : CString → α}

theorem printLong_eq (value : Int) :
    printLong value = printSign (decide (value < 0)) ++ Nat.toDigits 10 value.natAbs := by
  cases value with
  | ofNat n => rfl
  | negSucc n =>
      rw [decide_eq_true (Int.negSucc_lt_zero n)]
      rfl

/-- The text of a number, put together from a sign and digits, is read as a numeral. -/
theorem readValue_signed {digits more : CString} (negative : Bool) (hdigits : digits ≠ [])
    (hall : ∀ c ∈ digits, c.isDigit = true) {rest : CString}
    (hread : readMagnitude (digits ++ more ++ rest) = some (digits ++ more, rest)) (fuel : Nat) :
    readValue ofNumeral (fuel + 1) (printSign negative ++ (digits ++ more) ++ rest) =
      some (.number (ofNumeral (printSign negative ++ (digits ++ more))), rest) := by
  have hnumeral := readNumeral_of_magnitude hdigits hall (List.prefix_append digits more) hread
    negative
  obtain ⟨c, text, htext, hc⟩ : ∃ c text,
      printSign negative ++ (digits ++ more) ++ rest = c :: text ∧ startsNumeral c = true := by
    cases negative with
    | true => exact ⟨'-', _, rfl, rfl⟩
    | false =>
        cases digits with
        | nil => exact absurd rfl hdigits
        | cons c digits =>
            refine ⟨c, _, rfl, ?_⟩
            rw [startsNumeral, hall c List.mem_cons_self, Bool.true_or]
  change readNumeral (printSign negative ++ (digits ++ more) ++ rest) = _ at hnumeral
  rw [htext] at hnumeral ⊢
  rw [readValue_of_numeral hc, hnumeral]
  rfl

theorem isDigit_of_mem_toDigits {n : Nat} : ∀ c ∈ Nat.toDigits 10 n, c.isDigit = true :=
  fun _ hc => Nat.isDigit_of_mem_toDigits (by decide) (by decide) hc

/-- A printed integer is read as its numeral. -/
theorem readValue_printLong (value : Int) (fuel : Nat) {rest : CString} (hrest : EndsLine rest) :
    readValue ofNumeral (fuel + 1) (printLong value ++ rest) =
      some (.number (ofNumeral (printLong value)), rest) := by
  have hread : readMagnitude (Nat.toDigits 10 value.natAbs ++ [] ++ rest) =
      some (Nat.toDigits 10 value.natAbs ++ [], rest) := by
    rw [List.append_nil, readMagnitude_toDigits _ (noDigit_of_endsLine hrest),
      readFraction_of_endsLine hrest, Option.bind_some, readExponent_of_endsLine hrest]
    simp
  rw [printLong_eq, ← List.append_nil (Nat.toDigits 10 value.natAbs)]
  exact readValue_signed _ Nat.toDigits_ne_nil isDigit_of_mem_toDigits hread fuel

/-- A finite price is read as its numeral. -/
theorem readValue_print_finite {rounded : RoundedPrice} (hfinite : rounded.IsFinite) (fuel : Nat)
    {rest : CString} (hrest : EndsLine rest) :
    readValue ofNumeral (fuel + 1) (rounded.print ++ rest) =
      some (.number (ofNumeral rounded.print), rest) := by
  cases rounded with
  | infinite negative => exact hfinite.elim
  | nan negative => exact hfinite.elim
  | finite negative hundredths bound =>
      let tenth := (hundredths / 10 % 10).digitChar
      let hundredth := (hundredths % 10).digitChar
      have hdigit : ∀ n : Nat, (n % 10).digitChar.isDigit = true := by
        intro n
        rw [Nat.isDigit_digitChar]
        exact decide_eq_true (Nat.mod_lt n (by decide))
      have hfraction : readFraction ('.' :: tenth :: hundredth :: rest) =
          some (['.', tenth, hundredth], rest) := by
        have htenth : tenth.isDigit = true := hdigit _
        have hhundredth : hundredth.isDigit = true := hdigit _
        have htake : rest.takeWhile Char.isDigit = [] ∧ rest.dropWhile Char.isDigit = rest := by
          obtain ⟨more, rfl | rfl⟩ := hrest
          · exact ⟨rfl, rfl⟩
          · exact ⟨rfl, rfl⟩
        simp [readFraction, htenth, hhundredth, htake]
      have hpoint : ∀ c ∈ (['.', tenth, hundredth] ++ rest).head?, c.isDigit = false := by
        rintro c ⟨⟩
        rfl
      have hread : readMagnitude (Nat.toDigits 10 (hundredths / 100) ++
          ['.', tenth, hundredth] ++ rest) =
          some (Nat.toDigits 10 (hundredths / 100) ++ ['.', tenth, hundredth], rest) := by
        rw [List.append_assoc, readMagnitude_toDigits _ hpoint]
        simp only [List.cons_append, List.nil_append]
        rw [hfraction, Option.bind_some, readExponent_of_endsLine hrest]
        simp
      exact readValue_signed negative Nat.toDigits_ne_nil isDigit_of_mem_toDigits hread fuel

/-- What is printed of an infinity or NaN is no value. -/
theorem readValue_print_not_finite {rounded : RoundedPrice} (hfinite : ¬ rounded.IsFinite)
    (fuel : Nat) (rest : CString) :
    readValue ofNumeral (fuel + 1) (rounded.print ++ rest) = none := by
  cases rounded with
  | finite negative hundredths bound => exact absurd trivial hfinite
  | infinite negative => cases negative <;> rfl
  | nan negative => cases negative <;> rfl

end Numbers

/-! ## What a confirmation should say -/

section Confirmed

variable {α : Type} (cjson : CJson α) (ofNumeral : CString → α) (printer : ResponsePrinter α)

/-- The value of a place confirmation. -/
def acceptedRoot (given : OrderMessage α) (price : α) (timestamp : CString) : Json α :=
  .object
    [("type".toList, .number (cjson.ofInt ServerMessageType.orderAccepted.code)),
      ("Trade Details".toList, .object
        [("Type".toList, .string (sideText given.isBuy)),
          ("Order ID".toList, .string given.orderId),
          ("Trader ID".toList, .string given.traderId),
          ("Symbol".toList, .string given.symbol),
          ("Price".toList, .number price),
          ("Quantity".toList, .number (cjson.ofInt given.quantity))]),
      ("Timestamp".toList, .string timestamp),
      ("status".toList, .string "success".toList)]

/-- The value of a cancel confirmation. -/
def canceledRoot (orderId symbol timestamp : CString) : Json α :=
  .object
    [("type".toList, .number (cjson.ofInt ServerMessageType.orderCanceled.code)),
      ("Cancellation Details".toList, .object
        [("Order ID".toList, .string orderId), ("Symbol".toList, .string symbol)]),
      ("Timestamp".toList, .string timestamp),
      ("status".toList, .string "success".toList)]

/-- The confirmation of a cancellation fits the buffer and is a JSON text with the id and
the symbol. -/
structure ConfirmsCancel (orderId symbol : CString) (timestamp : Int) : Prop where
  fits : (canceledText printer orderId symbol timestamp).length < responseSize
  reads : JsonText.parse ofNumeral (canceledResponse printer orderId symbol timestamp) =
    some (canceledRoot cjson orderId symbol (printer.localtime timestamp).text)

/-- What the programs rely on in cJSON: it reads the texts of JSON as their values, where
`CJSON_NESTING_LIMIT` brackets are not exceeded, the numeral of an `int` is that `int`, and
a `valueint` is an `int`. -/
structure CJson.ReadsJson : Prop where
  reads : ∀ text value, text.length ≤ 1000 → JsonText.parse ofNumeral text = some value →
    cjson.parse text = some value
  integer : ∀ value, intMin ≤ value → value ≤ intMax →
    ofNumeral (printLong value) = cjson.ofInt value
  valueint : ∀ value, intMin ≤ cjson.toInt value ∧ cjson.toInt value ≤ intMax

/-- The strings of an order are plain and fit `OrderMessage`, and its price is printed as
a numeral. -/
structure Printable (given : OrderMessage α) : Prop where
  orderId : given.orderId.length ≤ 31 ∧ PlainText given.orderId
  traderId : given.traderId.length ≤ 31 ∧ PlainText given.traderId
  symbol : given.symbol.length ≤ 15 ∧ PlainText given.symbol
  price : (printer.rounded given.price).IsFinite

end Confirmed

/-! ## How the texts are read -/

section Reading

variable {α : Type} {cjson : CJson α} {ofNumeral : CString → α}

theorem ServerMessageType.code_isInt (messageType : ServerMessageType) :
    intMin ≤ messageType.code ∧ messageType.code ≤ intMax := by
  cases messageType <;> decide

/-- A sign or a digit before something is no blank. -/
theorem visible_signed (negative : Bool) {text : CString} (htext : Visible text) :
    Visible (printSign negative ++ text) := by
  cases negative with
  | true => exact ⟨'-', text, rfl, rfl⟩
  | false => exact htext

theorem visible_toDigits (n : Nat) (more : CString) : Visible (Nat.toDigits 10 n ++ more) := by
  cases hdigits : Nat.toDigits 10 n with
  | nil => exact absurd hdigits Nat.toDigits_ne_nil
  | cons c rest =>
      refine ⟨c, rest ++ more, rfl, ?_⟩
      have hc : c.isDigit = true := isDigit_of_mem_toDigits c (hdigits ▸ List.mem_cons_self)
      cases hblank : isBlank c with
      | false => rfl
      | true =>
          simp only [isBlank, Bool.or_eq_true, decide_eq_true_eq] at hblank
          rcases hblank with ((rfl | rfl) | rfl) | rfl <;> cases hc

theorem visible_printLong (value : Int) : Visible (printLong value) := by
  rw [printLong_eq, ← List.append_nil (Nat.toDigits 10 value.natAbs)]
  exact visible_signed _ (visible_toDigits _ [])

theorem RoundedPrice.visible_print (rounded : RoundedPrice) : Visible rounded.print := by
  cases rounded with
  | finite negative hundredths bound => exact visible_signed negative (visible_toDigits _ _)
  | infinite negative => exact visible_signed negative ⟨'i', _, rfl, rfl⟩
  | nan negative => exact visible_signed negative ⟨'n', _, rfl, rfl⟩

/-- The line of an integer. -/
theorem exact_integer {name : String} (hname : PlainText name.toList)
    (padding : Nat) (value : Int) (number : α) :
    (FormField.number ofNumeral name padding (printLong value) True number).Exact
      ofNumeral 1 := by
  apply FormField.number_exact hname padding (visible_printLong value)
  · exact fun _ fuel rest hrest => readValue_printLong value fuel hrest
  · exact fun hfalse => absurd trivial hfalse

/-- The line of a price. -/
theorem exact_price {name : String} (hname : PlainText name.toList)
    (padding : Nat) (rounded : RoundedPrice) (number : α) :
    (FormField.number ofNumeral name padding rounded.print rounded.IsFinite number).Exact
      ofNumeral 1 := by
  apply FormField.number_exact hname padding rounded.visible_print
  · exact fun hfinite fuel rest hrest => readValue_print_finite hfinite fuel hrest
  · exact fun hfinite fuel rest => readValue_print_not_finite hfinite fuel rest

variable (ofNumeral) in
/-- The lines of the details of an order, with the numbers they are meant to have. -/
def detailFields (printer : ResponsePrinter α) (given : OrderMessage α) (price quantity : α) :
    List (FormField α) :=
  [.whole "Type" 10 (sideText given.isBuy),
    .string "Order ID" 6 31 given.orderId,
    .string "Trader ID" 5 31 given.traderId,
    .string "Symbol" 8 15 given.symbol,
    .number ofNumeral "Price" 9 (printer.rounded given.price).print
      (printer.rounded given.price).IsFinite price,
    .number ofNumeral "Quantity" 6 (printLong given.quantity) True quantity]

theorem detailFields_exact (printer : ResponsePrinter α) (given : OrderMessage α)
    (price quantity : α) : ∀ field ∈ detailFields ofNumeral printer given price quantity,
      field.Exact ofNumeral 1 := by
  unfold detailFields
  simp only [List.forall_mem_cons]
  exact ⟨FormField.whole_exact (by decide) _ _, FormField.string_exact (by decide) _ _ _,
    FormField.string_exact (by decide) _ _ _, FormField.string_exact (by decide) _ _ _,
    exact_price (by decide) _ _ _, exact_integer (by decide) _ _ _,
    fun _ hmem => absurd hmem List.not_mem_nil⟩

variable (ofNumeral) in
/-- The lines of a confirmation around its details. -/
def confirmationFields (printer : ResponsePrinter α) (messageType : ServerMessageType)
    (name : String) (details : List (FormField α)) (code : α) (timestamp : Int) :
    List (FormField α) :=
  [.number ofNumeral "type" 1 (printLong messageType.code) True code,
    .object name 1 4 details,
    .whole "Timestamp" 5 (printer.localtime timestamp).text,
    .whole "status" 8 "success".toList]

/-- The characters of a timestamp are plain. -/
theorem TimestampText.plain (timestamp : TimestampText) : PlainText timestamp.text := by
  intro c hc
  have hchar := List.all_eq_true.mp timestamp.characters c hc
  rw [isTimestampChar, Bool.or_eq_true] at hchar
  rcases hchar with hdigit | hother
  · have hall : PlainText "0123456789".toList := by decide
    exact hall c (CNumerals.mem_digits_of_isDigit hdigit)
  · have hall : PlainText "-: ".toList := by decide
    exact hall c (List.contains_iff_mem.mp hother)

/-- A confirmation is read as it is meant exactly when its details are. -/
theorem parse_confirmation_iff (printer : ResponsePrinter α) (messageType : ServerMessageType)
    (name : String) (hname : PlainText name.toList) {details : List (FormField α)}
    (hne : details ≠ []) (hshort : details.length ≤ 6)
    (hdetails : ∀ field ∈ details, field.Exact ofNumeral 1) (code : α) (timestamp : Int) :
    let fields := confirmationFields ofNumeral printer messageType name details code timestamp
    JsonText.parse ofNumeral (printObject 0 (fields.map FormField.line)) =
        some (.object (fields.map FormField.member)) ↔
      code = ofNumeral (printLong messageType.code) ∧ ∀ field ∈ details, field.fits := by
  intro fields
  have hexact : ∀ field ∈ fields, field.Exact ofNumeral 8 := by
    have hobject := FormField.object_exact hname 1 4 hne hdetails
    simp only [fields, confirmationFields, List.forall_mem_cons]
    exact ⟨(exact_integer (by decide) _ _ _).mono (by decide), hobject.mono (by omega),
      (FormField.whole_exact (by decide) _ _).mono (by decide),
      (FormField.whole_exact (by decide) _ _).mono (by decide),
      fun _ hmem => absurd hmem List.not_mem_nil⟩
  have hfuel : 8 + fields.length ≤ (printObject 0 (fields.map FormField.line)).length := by
    simp [fields, confirmationFields, FormField.number, FormField.object, FormField.whole,
      printObject, printLines, Line.print, quoted]
  have hfields : fields ≠ [] := List.cons_ne_nil _ _
  rw [parse_printObject_iff hfields hexact hfuel]
  simp only [fields, confirmationFields, List.forall_mem_cons, FormField.number,
    FormField.object, FormField.whole]
  have htimestamp := (printer.localtime timestamp).plain
  have hstatus : PlainText "success".toList := by decide
  constructor
  · rintro ⟨⟨-, hcode⟩, hfits, -⟩
    exact ⟨hcode, hfits⟩
  · rintro ⟨hcode, hfits⟩
    exact ⟨⟨trivial, hcode⟩, hfits, htimestamp, hstatus,
      fun _ hmem => absurd hmem List.not_mem_nil⟩

/-! ## Lengths -/

theorem length_printSign_le (negative : Bool) : (printSign negative).length ≤ 1 := by
  cases negative <;> decide

theorem RoundedPrice.length_print_le (rounded : RoundedPrice) : rounded.print.length ≤ 315 := by
  cases rounded with
  | finite negative hundredths bound =>
      have hsign := length_printSign_le negative
      have hwhole : (Nat.toDigits 10 (hundredths / 100)).length ≤ 311 := by
        rw [Nat.length_toDigits_le_iff (by decide) (by decide)] at bound ⊢
        exact (Nat.div_le_self _ _).trans_lt bound
      simp only [RoundedPrice.print, List.length_append, List.length_cons, List.length_nil]
      omega
  | infinite negative =>
      have hsign := length_printSign_le negative
      simp only [RoundedPrice.print, List.length_append]
      change _ + 3 ≤ _
      omega
  | nan negative =>
      have hsign := length_printSign_le negative
      simp only [RoundedPrice.print, List.length_append]
      change _ + 3 ≤ _
      omega

theorem length_printLong_of_isInt {value : Int} (hmin : intMin ≤ value) (hmax : value ≤ intMax) :
    (printLong value).length ≤ 20 := by
  unfold intMin at hmin
  unfold intMax at hmax
  exact length_printLong_le ⟨value, by omega, by omega⟩

theorem length_sideText_le (isBuy : Bool) : (sideText isBuy).length ≤ 4 := by
  cases isBuy <;> decide

/-- A place confirmation always fits. -/
theorem length_acceptedText_le (printer : ResponsePrinter α) (given : OrderMessage α)
    (timestamp : Int) (hmin : intMin ≤ given.quantity) (hmax : given.quantity ≤ intMax) :
    (acceptedText printer given.cut timestamp).length ≤ 1000 := by
  have hside := length_sideText_le given.isBuy
  have hprice := (printer.rounded given.price).length_print_le
  have hquantity := length_printLong_of_isInt hmin hmax
  have htimestamp := (printer.localtime timestamp).fits
  have hcode : (printLong ServerMessageType.orderAccepted.code).length = 3 := by decide
  have horderId := List.length_take_le 31 given.orderId
  have htraderId := List.length_take_le 31 given.traderId
  have hsymbol := List.length_take_le 15 given.symbol
  simp only [acceptedText, OrderMessage.cut, printObject, printLines, Line.print, quoted,
    List.length_cons, List.length_append, List.length_replicate, List.length_nil,
    String.length_toList, hcode]
  have hnames : "type".length = 4 ∧ "Trade Details".length = 13 ∧ "Type".length = 4 ∧
      "Order ID".length = 8 ∧ "Trader ID".length = 9 ∧ "Symbol".length = 6 ∧
      "Price".length = 5 ∧ "Quantity".length = 8 ∧ "Timestamp".length = 9 ∧
      "status".length = 6 ∧ "success".length = 7 := by decide
  omega

/-- A cancel confirmation fits when the id and the symbol fit an order. -/
theorem length_canceledText_le (printer : ResponsePrinter α) {orderId symbol : CString}
    (horderId : orderId.length < maxIdLength) (hsymbol : symbol.length < maxSymbolLength)
    (timestamp : Int) : (canceledText printer orderId symbol timestamp).length ≤ 1000 := by
  have htimestamp := (printer.localtime timestamp).fits
  have hcode : (printLong ServerMessageType.orderCanceled.code).length = 3 := by decide
  unfold maxIdLength at horderId
  unfold maxSymbolLength at hsymbol
  simp only [canceledText, printObject, printLines, Line.print, quoted,
    List.length_cons, List.length_append, List.length_replicate, List.length_nil,
    String.length_toList, hcode]
  have hnames : "type".length = 4 ∧ "Cancellation Details".length = 20 ∧
      "Order ID".length = 8 ∧ "Symbol".length = 6 ∧ "Timestamp".length = 9 ∧
      "status".length = 6 ∧ "success".length = 7 := by decide
  omega

/-- A text that fits is not cut off. -/
theorem snprintf_of_fits {text : CString} (hfits : text.length < responseSize) :
    snprintf responseSize text = text :=
  List.take_of_length_le (Nat.le_sub_one_of_lt hfits)

end Reading

end QuantTrading
