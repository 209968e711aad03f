import QuantTrading.Protocol.PriorMemory

/-! # Which messages the parsers accept

`parse_order_message` and `parse_trade_message` ask for six members each and look
only at their presence. A message that has them all is accepted when the texts are
strings, whatever the others are; when a text is not a string, its `NULL`
`valuestring` is handed to `strncpy`.
-/

namespace QuantTrading

/-- The kinds of JSON values. -/
inductive JsonKind where
  | null
  | bool
  | number
  | string
  | array
  | object
deriving DecidableEq, Repr

namespace Json

variable {α : Type}

/-- The kind of a value. -/
def kind : Json α → JsonKind
  | .null => .null
  | .bool _ => .bool
  | .number _ => .number
  | .string _ => .string
  | .array _ => .array
  | .object _ => .object

theorem stringValue_of_kind {item : Json α} (hkind : item.kind = .string) :
    ∃ text, item.stringValue = .ok text := by
  cases item with
  | string text => exact ⟨text, rfl⟩
  | null => cases hkind
  | bool value => cases hkind
  | number value => cases hkind
  | array items => cases hkind
  | object members => cases hkind

theorem stringValue_of_kind_ne {item : Json α} (hkind : item.kind ≠ .string) :
    item.stringValue = .error .nullPointer := by
  cases item with
  | string text => exact absurd rfl hkind
  | null => rfl
  | bool value => rfl
  | number value => rfl
  | array items => rfl
  | object members => rfl

/-- All the members are there, each of its kind. -/
def WellTyped (root : Json α) (fields : List (String × JsonKind)) : Prop :=
  ∀ field ∈ fields, (root.getObjectItem field.1).map kind = some field.2

instance (root : Json α) (fields : List (String × JsonKind)) : Decidable (root.WellTyped fields) :=
  inferInstanceAs (Decidable (∀ field ∈ fields, _))

theorem WellTyped.complete {root : Json α} {fields : List (String × JsonKind)}
    (htyped : root.WellTyped fields) : root.Complete (fields.map Prod.fst) := by
  intro name hname
  obtain ⟨field, hfield, rfl⟩ := List.mem_map.mp hname
  have hmap := htyped field hfield
  cases hitem : root.getObjectItem field.1 with
  | none =>
      rw [hitem] at hmap
      cases hmap
  | some item => rfl

/-- The members that must be strings are. -/
def TextsAreStrings (root : Json α) (fields : List (String × JsonKind)) : Prop :=
  root.WellTyped (fields.filter fun field => field.2 = .string)

theorem WellTyped.textsAreStrings {root : Json α} {fields : List (String × JsonKind)}
    (htyped : root.WellTyped fields) : root.TextsAreStrings fields :=
  fun field hfield => htyped field (List.mem_of_mem_filter hfield)

/-- The first three members decide whether the texts are strings. -/
theorem textsAreStrings_iff {root : Json α} {first second third : String}
    {others : List (String × JsonKind)} {item₁ item₂ item₃ : Json α}
    (hothers : ∀ field ∈ others, field.2 ≠ .string) (hfirst : root.getObjectItem first = some item₁)
    (hsecond : root.getObjectItem second = some item₂)
    (hthird : root.getObjectItem third = some item₃) :
    root.TextsAreStrings ((first, .string) :: (second, .string) :: (third, .string) :: others) ↔
      item₁.kind = .string ∧ item₂.kind = .string ∧ item₃.kind = .string := by
  have hnone : others.filter (fun field => field.2 = .string) = [] := by
    apply List.filter_eq_nil_iff.mpr
    intro field hfield
    simpa using hothers field hfield
  simp [TextsAreStrings, WellTyped, hnone, hfirst, hsecond, hthird]

end Json

/-- The members of an order message with their kinds. -/
def orderFields : List (String × JsonKind) :=
  [("order_id", .string), ("trader_id", .string), ("symbol", .string), ("price", .number),
    ("quantity", .number), ("is_buy", .bool)]

/-- The members of a trade message with their kinds. -/
def tradeFields : List (String × JsonKind) :=
  [("symbol", .string), ("buy_order_id", .string), ("sell_order_id", .string),
    ("price", .number), ("quantity", .number), ("timestamp", .number)]

section Parsers

variable {α Buffer : Type}

/-- A parser accepts exactly the messages with members of these kinds: it returns, it
returns true for those only, and it leaves the struct alone when it returns false. -/
def AcceptsExactly (parse : Buffer → Except Fault (Bool × Buffer)) (root : Json α)
    (fields : List (String × JsonKind)) (buffer : Buffer) : Prop :=
  ∃ accepted after, parse buffer = .ok (accepted, after) ∧
    (accepted = true ↔ root.WellTyped fields) ∧ (accepted = false → after = buffer)

/-- What a parser that looks for the presence of members does with a message. -/
structure ChecksPresence (parse : Buffer → Except Fault (Bool × Buffer)) (root : Json α)
    (fields : List (String × JsonKind)) (buffer : Buffer) : Prop where
  incomplete : ¬ root.Complete (fields.map Prod.fst) → parse buffer = .ok (false, buffer)
  strings : root.Complete (fields.map Prod.fst) → root.TextsAreStrings fields →
    ∃ after, parse buffer = .ok (true, after)
  notString : root.Complete (fields.map Prod.fst) → ¬ root.TextsAreStrings fields →
    parse buffer = .error .nullPointer

/-- Such a parser accepts exactly the well-typed messages only where no complete message
is ill-typed. -/
theorem ChecksPresence.acceptsExactly_iff {parse : Buffer → Except Fault (Bool × Buffer)}
    {root : Json α} {fields : List (String × JsonKind)} {buffer : Buffer}
    (hparser : ChecksPresence parse root fields buffer) :
    AcceptsExactly parse root fields buffer ↔
      (root.Complete (fields.map Prod.fst) → root.WellTyped fields) := by
  constructor
  · rintro ⟨accepted, after, hparse, haccepted, _⟩ hcomplete
    by_cases hstrings : root.TextsAreStrings fields
    · obtain ⟨after', htrue⟩ := hparser.strings hcomplete hstrings
      rw [htrue] at hparse
      cases hparse
      exact haccepted.mp rfl
    · rw [hparser.notString hcomplete hstrings] at hparse
      cases hparse
  · intro htyped
    by_cases hcomplete : root.Complete (fields.map Prod.fst)
    · obtain ⟨after, htrue⟩ := hparser.strings hcomplete (htyped hcomplete).textsAreStrings
      exact ⟨true, after, htrue, by simp [htyped hcomplete], by simp⟩
    · refine ⟨false, buffer, hparser.incomplete hcomplete, ?_, fun _ => rfl⟩
      constructor
      · intro hfalse
        cases hfalse
      · exact fun hwell => absurd hwell.complete hcomplete

/-- Read three texts through their `valuestring` and go on with them. -/
def readTexts (first second third : Json α)
    (finish : CString → CString → CString → Except Fault (Bool × Buffer)) :
    Except Fault (Bool × Buffer) := do
  let firstText ← first.stringValue
  let secondText ← second.stringValue
  let thirdText ← third.stringValue
  finish firstText secondText thirdText

variable {first second third : Json α}
  {finish : CString → CString → CString → Except Fault (Bool × Buffer)}

theorem readTexts_of_strings
    (hkinds : first.kind = .string ∧ second.kind = .string ∧ third.kind = .string) :
    ∃ text₁ text₂ text₃, readTexts first second third finish = finish text₁ text₂ text₃ := by
  obtain ⟨text₁, htext₁⟩ := Json.stringValue_of_kind hkinds.1
  obtain ⟨text₂, htext₂⟩ := Json.stringValue_of_kind hkinds.2.1
  obtain ⟨text₃, htext₃⟩ := Json.stringValue_of_kind hkinds.2.2
  refine ⟨text₁, text₂, text₃, ?_⟩
  rw [readTexts, htext₁, htext₂, htext₃]
  rfl

/-- The first text that is not a string stops the process. -/
theorem readTexts_of_not_strings
    (hkinds : ¬ (first.kind = .string ∧ second.kind = .string ∧ third.kind = .string)) :
    readTexts first second third finish = .error .nullPointer := by
  unfold readTexts
  by_cases hfirst : first.kind = .string
  · obtain ⟨text₁, htext₁⟩ := Json.stringValue_of_kind hfirst
    by_cases hsecond : second.kind = .string
    · obtain ⟨text₂, htext₂⟩ := Json.stringValue_of_kind hsecond
      have hthird : third.kind ≠ .string := fun hthird => hkinds ⟨hfirst, hsecond, hthird⟩
      rw [htext₁, htext₂, Json.stringValue_of_kind_ne hthird]
      rfl
    · rw [htext₁, Json.stringValue_of_kind_ne hsecond]
      rfl
  · rw [Json.stringValue_of_kind_ne hfirst]
    rfl

/-- A parser that reads three texts of a complete message and returns true then. -/
theorem checksPresence_of_readTexts {parse : Buffer → Except Fault (Bool × Buffer)}
    {root : Json α} {name₁ name₂ name₃ : String} {others : List (String × JsonKind)}
    {buffer : Buffer} {write : CString → CString → CString → Buffer}
    (hothers : ∀ field ∈ others, field.2 ≠ .string)
    (hfirst : root.getObjectItem name₁ = some first)
    (hsecond : root.getObjectItem name₂ = some second)
    (hthird : root.getObjectItem name₃ = some third)
    (hcomplete : root.Complete (name₁ :: name₂ :: name₃ :: others.map Prod.fst))
    (hparse : parse buffer = readTexts first second third fun text₁ text₂ text₃ =>
      .ok (true, write text₁ text₂ text₃)) :
    ChecksPresence parse root
      ((name₁, .string) :: (name₂, .string) :: (name₃, .string) :: others) buffer where
  incomplete hincomplete := absurd hcomplete hincomplete
  strings _ hstrings := by
    obtain ⟨text₁, text₂, text₃, hread⟩ := readTexts_of_strings
      ((Json.textsAreStrings_iff hothers hfirst hsecond hthird).mp hstrings)
    exact ⟨_, hparse.trans hread⟩
  notString _ hstrings := by
    rw [hparse]
    apply readTexts_of_not_strings
    rwa [← Json.textsAreStrings_iff hothers hfirst hsecond hthird]

theorem checksPresence_of_incomplete {parse : Buffer → Except Fault (Bool × Buffer)}
    {root : Json α} {fields : List (String × JsonKind)} {buffer : Buffer}
    (hincomplete : ¬ root.Complete (fields.map Prod.fst))
    (hparse : parse buffer = .ok (false, buffer)) :
    ChecksPresence parse root fields buffer :=
  ⟨fun _ => hparse, fun hcomplete => absurd hcomplete hincomplete,
    fun hcomplete => absurd hcomplete hincomplete⟩

theorem parseOrderMessage_checksPresence {cjson : CJson α} {json : CString} {root : Json α}
    (hroot : cjson.parse json = some root) (order : OrderBuffer α) :
    ChecksPresence (parseOrderMessage cjson json) root orderFields order := by
  by_cases hcomplete : root.Complete orderMembers
  · have hitems := hcomplete
    simp only [Json.Complete, orderMembers, List.forall_mem_cons, Option.isSome_iff_exists]
      at hitems
    obtain ⟨⟨orderId, horderId⟩, ⟨traderId, htraderId⟩, ⟨symbol, hsymbol⟩, ⟨price, hprice⟩,
      ⟨quantity, hquantity⟩, ⟨isBuy, hisBuy⟩, _⟩ := hitems
    have hparse : parseOrderMessage cjson json order =
        readTexts orderId traderId symbol fun orderIdText traderIdText symbolText => .ok (true,
          { symbol := order.symbol.strncpy symbolText
            orderId := order.orderId.strncpy orderIdText
            traderId := order.traderId.strncpy traderIdText
            price := price.valuedouble cjson
            quantity := quantity.valueint cjson
            isBuy := isBuy.isTrue }) := by
      rw [parseOrderMessage, hroot]
      simp only [horderId, htraderId, hsymbol, hprice, hquantity, hisBuy]
      rfl
    exact checksPresence_of_readTexts (by simp) horderId htraderId hsymbol hcomplete hparse
  · exact checksPresence_of_incomplete hcomplete
      (parseOrderMessage_of_incomplete hroot hcomplete order)

theorem parseTradeMessage_checksPresence {cjson : CJson α} {json : CString} {root : Json α}
    (hroot : cjson.parse json = some root) (trade : TradeBuffer α) :
    ChecksPresence (parseTradeMessage cjson json) root tradeFields trade := by
  by_cases hcomplete : root.Complete tradeMembers
  · have hitems := hcomplete
    simp only [Json.Complete, tradeMembers, List.forall_mem_cons, Option.isSome_iff_exists]
      at hitems
    obtain ⟨⟨symbol, hsymbol⟩, ⟨buyOrderId, hbuyOrderId⟩, ⟨sellOrderId, hsellOrderId⟩,
      ⟨price, hprice⟩, ⟨quantity, hquantity⟩, ⟨timestamp, htimestamp⟩, _⟩ := hitems
    have hparse : parseTradeMessage cjson json trade =
        readTexts symbol buyOrderId sellOrderId fun symbolText buyText sellText => .ok (true,
          { symbol := trade.symbol.strncpy symbolText
            buyOrderId := trade.buyOrderId.strncpy buyText
            sellOrderId := trade.sellOrderId.strncpy sellText
            price := price.valuedouble cjson
            quantity := quantity.valueint cjson
            timestamp := cjson.toInt64 (timestamp.valuedouble cjson) }) := by
      rw [parseTradeMessage, hroot]
      simp only [hsymbol, hbuyOrderId, hsellOrderId, hprice, hquantity, htimestamp]
      rfl
    exact checksPresence_of_readTexts (by simp) hsymbol hbuyOrderId hsellOrderId hcomplete hparse
  · exact checksPresence_of_incomplete hcomplete
      (parseTradeMessage_of_incomplete hroot hcomplete trade)

/-- On a text that cJSON accepts, each parser accepts exactly the well-typed messages, and
leaves the struct of the others alone, if and only if a member is missing or all have
their kinds. -/
theorem parseMessages_acceptExactly_iff (cjson : CJson α) (json : CString) (root : Json α)
    (hroot : cjson.parse json = some root) (order : OrderBuffer α) (trade : TradeBuffer α) :
    (AcceptsExactly (parseOrderMessage cjson json) root orderFields order ↔
      (root.Complete orderMembers → root.WellTyped orderFields)) ∧
    (AcceptsExactly (parseTradeMessage cjson json) root tradeFields trade ↔
      (root.Complete tradeMembers → root.WellTyped tradeFields)) :=
  ⟨(parseOrderMessage_checksPresence hroot order).acceptsExactly_iff,
    (parseTradeMessage_checksPresence hroot trade).acceptsExactly_iff⟩

end Parsers

/-! ## An order whose id is a number -/

/-- An order message with a given `order_id`. -/
def orderWithId (orderId : Json ℚ) : Json ℚ :=
  .object [("order_id".toList, orderId), ("trader_id".toList, .string "T".toList),
    ("symbol".toList, .string "AAPL".toList), ("price".toList, .number 100),
    ("quantity".toList, .number 10), ("is_buy".toList, .bool true)]

/-- The text of such a message. -/
def orderText (orderId : String) : CString :=
  ("\x7b\"order_id\": " ++ orderId ++ ", \"trader_id\": \"T\", \"symbol\": \"AAPL\", " ++
    "\"price\": 100, \"quantity\": 10, \"is_buy\": true\x7d").toList

/-- A library that reads two of these texts as cJSON does. -/
def orderIdTexts : CJson ℚ :=
  CJson.table [(orderText "7", orderWithId (.number 7)),
    (orderText "\"B1\"", orderWithId (.string "B1".toList))] []

theorem parseMessages_acceptExactly_text :
    AcceptsExactly (parseOrderMessage orderIdTexts (orderText "\"B1\""))
      (orderWithId (.string "B1".toList)) orderFields (OrderBuffer.zero 0) :=
  (parseMessages_acceptExactly_iff orderIdTexts (orderText "\"B1\"")
    (orderWithId (.string "B1".toList)) rfl (OrderBuffer.zero 0) (TradeBuffer.zero 0)).1.mpr
    fun _ => by decide

/-- An `order_id` that is a number is read through a `NULL` pointer. -/
theorem parseOrderMessage_faults_on_number :
    orderIdTexts.parse (orderText "7") = some (orderWithId (.number 7)) ∧
      parseOrderMessage orderIdTexts (orderText "7") (OrderBuffer.zero 0) = .error .nullPointer ∧
      ¬ AcceptsExactly (parseOrderMessage orderIdTexts (orderText "7")) (orderWithId (.number 7))
        orderFields (OrderBuffer.zero 0) := by
  refine ⟨rfl, rfl, ?_⟩
  rintro ⟨accepted, after, hparse, _⟩
  cases hparse

end QuantTrading
