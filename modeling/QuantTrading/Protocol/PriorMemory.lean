import QuantTrading.Protocol.BookSnapshots

/-! # Parsing into memory that was not initialised

The parsers copy a text with `strncpy` and do not write the last character of its
array, and they skip the entry of a level that lacks its price or its quantity. This
module says for which messages the outcome does not depend on what was in the struct
and in the allocated arrays before.
-/

namespace QuantTrading

/-- An array filled with one character. -/
def CharArray.filled (size : Nat) (c : Char) : CharArray size where
  chars := List.replicate size c
  length_eq := List.length_replicate

theorem CharArray.filled_holds_iff {size : Nat} (hsize : 0 < size) (source : CString) :
    (CharArray.filled size 'x').Holds source ↔ source.length < size - 1 := by
  have hopen : ¬ (CharArray.filled size 'x').Ends := by
    rw [Ends, filled, List.getElem?_replicate, if_pos (by omega)]
    decide
  exact or_iff_left hopen

/-- Two runs over any two contents of the memory return the same, and when they return
true the same message can be read, inside the fields, after both. -/
def Independent {Prior Buffer Message : Type} (parse : Prior → Except Fault (Bool × Buffer))
    (read : Buffer → Except Fault Message) : Prop :=
  ∀ first second, ∃ outcome, received read (parse first) = .ok outcome ∧
    received read (parse second) = .ok outcome

theorem independent_of_const {Prior Buffer Message : Type}
    {parse : Prior → Except Fault (Bool × Buffer)} {read : Buffer → Except Fault Message}
    (outcome : Option Message) (hparse : ∀ prior, received read (parse prior) = .ok outcome) :
    Independent parse read :=
  fun first second => ⟨outcome, hparse first, hparse second⟩

/-- A text that is rejected. -/
theorem independent_of_false {Prior Buffer Message : Type}
    {parse : Prior → Except Fault (Bool × Buffer)} {read : Buffer → Except Fault Message}
    (hfalse : ∀ prior, ∃ buffer, parse prior = .ok (false, buffer)) : Independent parse read := by
  apply independent_of_const none
  intro prior
  obtain ⟨buffer, hparse⟩ := hfalse prior
  rw [hparse]
  rfl

/-- A message that can be read when its texts end inside their fields. -/
theorem independent_iff_of_reads {Prior Buffer Message : Type}
    {parse : Prior → Except Fault (Bool × Buffer)} {read : Buffer → Except Fault Message}
    {holds : Prior → Prop} [DecidablePred holds] {message : Message} {condition : Prop}
    (hreads : ∀ prior, received read (parse prior) =
      if holds prior then .ok (some message) else .error .outOfBounds)
    (henough : condition → ∀ prior, holds prior) (prior : Prior)
    (hneeded : holds prior → condition) : Independent parse read ↔ condition := by
  constructor
  · intro hindependent
    obtain ⟨outcome, hfirst, _⟩ := hindependent prior prior
    rw [hreads] at hfirst
    split_ifs at hfirst with hholds
    exact hneeded hholds
  · intro hcondition
    apply independent_of_const (some message)
    intro prior
    rw [hreads, if_pos (henough hcondition prior)]

variable {α : Type}

namespace Json

/-- All these members are there. -/
def Complete (root : Json α) (names : List String) : Prop :=
  ∀ name ∈ names, (root.getObjectItem name).isSome

/-- These members, when they are there, are strings. -/
def Texts (root : Json α) (names : List String) : Prop :=
  ∀ name ∈ names, ∀ item, root.getObjectItem name = some item → ∃ text, item = .string text

/-- These members are shorter than what is copied of them. -/
def Short (root : Json α) (limits : List (String × Nat)) : Prop :=
  ∀ limit ∈ limits, ∀ text, root.getObjectItem limit.1 = some (.string text) →
    text.length < limit.2

theorem Complete.get {root : Json α} {names : List String} (hcomplete : root.Complete names)
    (name : String) (hname : name ∈ names) : ∃ item, root.getObjectItem name = some item :=
  Option.isSome_iff_exists.mp (hcomplete name hname)

theorem Complete.getText {root : Json α} {names texts : List String}
    (hcomplete : root.Complete names) (htexts : root.Texts texts) (name : String)
    (hname : name ∈ names) (htext : name ∈ texts) :
    ∃ text, root.getObjectItem name = some (.string text) := by
  obtain ⟨item, hitem⟩ := hcomplete.get name hname
  obtain ⟨text, rfl⟩ := htexts name htext item hitem
  exact ⟨text, hitem⟩

end Json

/-! ## Orders and trades -/

/-- The members of an order. -/
def orderMembers : List String :=
  ["order_id", "trader_id", "symbol", "price", "quantity", "is_buy"]

/-- The texts of an order, with the length up to which they leave room for a NUL. -/
def orderTexts : List (String × Nat) :=
  [("symbol", 15), ("order_id", 31), ("trader_id", 31)]

/-- The members of a trade. -/
def tradeMembers : List String :=
  ["symbol", "buy_order_id", "sell_order_id", "price", "quantity", "timestamp"]

/-- The texts of a trade. -/
def tradeTexts : List (String × Nat) :=
  [("symbol", 15), ("buy_order_id", 31), ("sell_order_id", 31)]

section Parse

variable {cjson : CJson α} {json : CString} {root : Json α}

theorem parseOrderMessage_of_incomplete (hparse : cjson.parse json = some root)
    (hincomplete : ¬ root.Complete orderMembers) (prior : OrderBuffer α) :
    parseOrderMessage cjson json prior = .ok (false, prior) := by
  rw [parseOrderMessage, hparse]
  dsimp only
  split
  next horderId htraderId hsymbol hprice hquantity hisBuy =>
    refine absurd ?_ hincomplete
    simp [Json.Complete, orderMembers, horderId, htraderId, hsymbol, hprice, hquantity, hisBuy]
  · rfl

theorem parseTradeMessage_of_incomplete (hparse : cjson.parse json = some root)
    (hincomplete : ¬ root.Complete tradeMembers) (prior : TradeBuffer α) :
    parseTradeMessage cjson json prior = .ok (false, prior) := by
  rw [parseTradeMessage, hparse]
  dsimp only
  split
  next hsymbol hbuy hsell hprice hquantity htimestamp =>
    refine absurd ?_ hincomplete
    simp [Json.Complete, tradeMembers, hsymbol, hbuy, hsell, hprice, hquantity, htimestamp]
  · rfl

/-- A struct whose arrays hold no NUL. -/
def OrderBuffer.unterminated (price : α) : OrderBuffer α where
  symbol := .filled 16 'x'
  orderId := .filled 32 'x'
  traderId := .filled 32 'x'
  price := price
  quantity := 0
  isBuy := false

/-- A struct whose arrays hold no NUL. -/
def TradeBuffer.unterminated (price : α) : TradeBuffer α where
  symbol := .filled 16 'x'
  buyOrderId := .filled 32 'x'
  sellOrderId := .filled 32 'x'
  price := price
  quantity := 0
  timestamp := 0

/-- An order is parsed independently of the memory when one of its members is missing or
its texts are short. -/
theorem parseOrderMessage_independent_iff (hparse : cjson.parse json = some root)
    (hstrings : root.PlainStrings) (htexts : root.Texts (orderTexts.map Prod.fst)) :
    Independent (parseOrderMessage cjson json) OrderBuffer.read ↔
      (root.Complete orderMembers → root.Short orderTexts) := by
  by_cases hcomplete : root.Complete orderMembers
  · obtain ⟨orderId, horderId⟩ := hcomplete.getText htexts "order_id" (by decide) (by decide)
    obtain ⟨traderId, htraderId⟩ := hcomplete.getText htexts "trader_id" (by decide) (by decide)
    obtain ⟨symbol, hsymbol⟩ := hcomplete.getText htexts "symbol" (by decide) (by decide)
    obtain ⟨price, hprice⟩ := hcomplete.get "price" (by decide)
    obtain ⟨quantity, hquantity⟩ := hcomplete.get "quantity" (by decide)
    obtain ⟨isBuy, hisBuy⟩ := hcomplete.get "is_buy" (by decide)
    have hshort : root.Short orderTexts ↔
        symbol.length < 15 ∧ orderId.length < 31 ∧ traderId.length < 31 := by
      simp [Json.Short, orderTexts, hsymbol, horderId, htraderId]
    rw [forall_prop_of_true hcomplete, hshort]
    refine independent_iff_of_reads
      (received_parseOrderMessage hparse hstrings horderId htraderId hsymbol hprice hquantity
        hisBuy) ?_ (OrderBuffer.unterminated (cjson.ofInt 0)) ?_
    · rintro ⟨hsymbolShort, horderIdShort, htraderIdShort⟩ prior
      exact ⟨Or.inl hsymbolShort, Or.inl horderIdShort, Or.inl htraderIdShort⟩
    · rintro ⟨hsymbolHolds, horderIdHolds, htraderIdHolds⟩
      exact ⟨(CharArray.filled_holds_iff (by decide) _).mp hsymbolHolds,
        (CharArray.filled_holds_iff (by decide) _).mp horderIdHolds,
        (CharArray.filled_holds_iff (by decide) _).mp htraderIdHolds⟩
  · refine iff_of_true ?_ fun hall => absurd hall hcomplete
    exact independent_of_false fun prior =>
      ⟨_, parseOrderMessage_of_incomplete hparse hcomplete prior⟩

/-- A trade is parsed independently of the memory when one of its members is missing or
its texts are short. -/
theorem parseTradeMessage_independent_iff (hparse : cjson.parse json = some root)
    (hstrings : root.PlainStrings) (htexts : root.Texts (tradeTexts.map Prod.fst)) :
    Independent (parseTradeMessage cjson json) TradeBuffer.read ↔
      (root.Complete tradeMembers → root.Short tradeTexts) := by
  by_cases hcomplete : root.Complete tradeMembers
  · obtain ⟨symbol, hsymbol⟩ := hcomplete.getText htexts "symbol" (by decide) (by decide)
    obtain ⟨buyId, hbuy⟩ := hcomplete.getText htexts "buy_order_id" (by decide) (by decide)
    obtain ⟨sellId, hsell⟩ := hcomplete.getText htexts "sell_order_id" (by decide) (by decide)
    obtain ⟨price, hprice⟩ := hcomplete.get "price" (by decide)
    obtain ⟨quantity, hquantity⟩ := hcomplete.get "quantity" (by decide)
    obtain ⟨timestamp, htimestamp⟩ := hcomplete.get "timestamp" (by decide)
    have hshort : root.Short tradeTexts ↔
        symbol.length < 15 ∧ buyId.length < 31 ∧ sellId.length < 31 := by
      simp [Json.Short, tradeTexts, hsymbol, hbuy, hsell]
    rw [forall_prop_of_true hcomplete, hshort]
    refine independent_iff_of_reads
      (received_parseTradeMessage hparse hstrings hsymbol hbuy hsell hprice hquantity
        htimestamp) ?_ (TradeBuffer.unterminated (cjson.ofInt 0)) ?_
    · rintro ⟨hsymbolShort, hbuyShort, hsellShort⟩ prior
      exact ⟨Or.inl hsymbolShort, Or.inl hbuyShort, Or.inl hsellShort⟩
    · rintro ⟨hsymbolHolds, hbuyHolds, hsellHolds⟩
      exact ⟨(CharArray.filled_holds_iff (by decide) _).mp hsymbolHolds,
        (CharArray.filled_holds_iff (by decide) _).mp hbuyHolds,
        (CharArray.filled_holds_iff (by decide) _).mp hsellHolds⟩
  · refine iff_of_true ?_ fun hall => absurd hall hcomplete
    exact independent_of_false fun prior =>
      ⟨_, parseTradeMessage_of_incomplete hparse hcomplete prior⟩

/-! ## Snapshots -/

/-- What freshly allocated memory and the struct hold before a snapshot is parsed. -/
structure SnapshotPrior (α : Type) where
  bids : FreshMemory α
  asks : FreshMemory α
  snapshot : SnapshotBuffer α

/-- `parse_book_snapshot` over that memory. -/
def SnapshotPrior.parse (cjson : CJson α) (json : CString) (prior : SnapshotPrior α) :
    Except Fault (Bool × SnapshotBuffer α) :=
  parseBookSnapshot cjson json (some (prior.bids, prior.asks)) prior.snapshot

/-- The symbol, the bids and the asks in a struct. The field `max_orders` is no member of
the message. -/
def SnapshotBuffer.readMembers (buffer : SnapshotBuffer α) :
    Except Fault (CString × List (α × Int) × List (α × Int)) :=
  match buffer.read with
  | .error fault => .error fault
  | .ok snapshot => .ok (snapshot.symbol, snapshot.bids, snapshot.asks)

/-- The entries of a side after parsing into memory. -/
def levelEntries (cjson : CJson α) (fresh : FreshMemory α) (levels : List (Json α)) :
    List (α × Int) :=
  (List.range levels.length).map fun index =>
    ((levels[index]?).bind (levelTerms cjson)).getD (fresh.prices index, fresh.quantities index)

/-- What is read of a snapshot whose members are all there. -/
theorem received_parseBookSnapshot {symbol : CString} {bids asks : List (Json α)}
    (hparse : cjson.parse json = some root) (hplain : nul ∉ symbol)
    (hsymbol : root.getObjectItem "symbol" = some (.string symbol))
    (hbids : root.getObjectItem "bids" = some (.array bids))
    (hasks : root.getObjectItem "asks" = some (.array asks)) (prior : SnapshotPrior α) :
    received SnapshotBuffer.readMembers (prior.parse cjson json) =
      if prior.snapshot.symbol.Holds symbol then
        .ok (some (symbol.take 15, levelEntries cjson prior.bids bids,
          levelEntries cjson prior.asks asks))
      else .error .outOfBounds := by
  have hsymbolText := prior.snapshot.symbol.text_strncpy (by decide) hplain
  rw [SnapshotPrior.parse, parseBookSnapshot, hparse]
  simp only [hsymbol, hbids, hasks, Json.stringValue, Json.valuestring, bind, Except.bind, received,
    SnapshotBuffer.readMembers, SnapshotBuffer.read, hsymbolText, readEntries_writeLevels]
  by_cases hholds : prior.snapshot.symbol.Holds symbol
  · simp [hholds, levelEntries]
  · simp [hholds]

/-- A level has a price and a quantity. -/
def Json.IsLevel (level : Json α) : Prop :=
  level.Complete ["price", "quantity"]

theorem levelTerms_isSome_iff (cjson : CJson α) (level : Json α) :
    (levelTerms cjson level).isSome ↔ level.IsLevel := by
  unfold levelTerms Json.IsLevel
  cases hprice : level.getObjectItem "price" with
  | none => simp [Json.Complete, hprice]
  | some price =>
      cases hquantity : level.getObjectItem "quantity" with
      | none => simp [Json.Complete, hquantity]
      | some quantity => simp [Json.Complete, hprice, hquantity]

theorem levelEntries_eq_of_levels {levels : List (Json α)}
    (hlevels : ∀ level ∈ levels, level.IsLevel) (first second : FreshMemory α) :
    levelEntries cjson first levels = levelEntries cjson second levels := by
  apply List.map_congr_left
  intro index hindex
  have hlt : index < levels.length := List.mem_range.mp hindex
  have hlevel := (levelTerms_isSome_iff cjson _).mpr
    (hlevels _ (List.getElem_mem hlt))
  obtain ⟨terms, hterms⟩ := Option.isSome_iff_exists.mp hlevel
  rw [List.getElem?_eq_getElem hlt, Option.bind_some, hterms]
  rfl

/-- Memory that holds the same everywhere. -/
def FreshMemory.constant (price : α) (quantity : Int) : FreshMemory α where
  prices := fun _ => price
  quantities := fun _ => quantity

/-- When two memories with different quantities make no difference, all the levels are
written. -/
theorem levels_of_levelEntries_eq {levels : List (Json α)} {price : α}
    (hsame : levelEntries cjson (.constant price 0) levels =
      levelEntries cjson (.constant price 1) levels) : ∀ level ∈ levels, level.IsLevel := by
  intro level hlevel
  obtain ⟨index, hlt, rfl⟩ := List.getElem_of_mem hlevel
  rw [← levelTerms_isSome_iff cjson]
  by_contra hnone
  rw [Option.not_isSome_iff_eq_none] at hnone
  have hentry := congrArg (fun entries => entries[index]?) hsame
  simp [levelEntries, hlt, hnone, FreshMemory.constant] at hentry

/-- Memory without a NUL in the array of the symbol, and with one quantity everywhere. -/
def SnapshotPrior.constant (price : α) (quantity : Int) : SnapshotPrior α where
  bids := .constant price quantity
  asks := .constant price quantity
  snapshot := { SnapshotBuffer.zero with symbol := .filled 16 'x' }

/-- The members that `parse_book_snapshot` asks for are there. -/
def SnapshotMembers (root symbol : Json α) (bids asks : List (Json α)) : Prop :=
  root.getObjectItem "symbol" = some symbol ∧ root.getObjectItem "bids" = some (.array bids) ∧
    root.getObjectItem "asks" = some (.array asks)

theorem parseBookSnapshot_of_incomplete (hparse : cjson.parse json = some root)
    (hincomplete : ¬ ∃ symbol bids asks, SnapshotMembers root symbol bids asks)
    (prior : SnapshotPrior α) : prior.parse cjson json = .ok (false, prior.snapshot) := by
  rw [SnapshotPrior.parse, parseBookSnapshot, hparse]
  dsimp only
  split
  next symbol bids asks hsymbol hbids hasks =>
    exact absurd ⟨symbol, bids, asks, hsymbol, hbids, hasks⟩ hincomplete
  · rfl

/-- A snapshot is parsed independently of the memory when one of its members is missing,
or its symbol is short and all its levels have a price and a quantity. -/
theorem parseBookSnapshot_independent_iff (hparse : cjson.parse json = some root)
    (hstrings : root.PlainStrings) (htexts : root.Texts ["symbol"]) :
    Independent (SnapshotPrior.parse cjson json) SnapshotBuffer.readMembers ↔
      ∀ symbol bids asks, SnapshotMembers root symbol bids asks →
        root.Short [("symbol", 15)] ∧ ∀ level ∈ bids ++ asks, level.IsLevel := by
  by_cases hcomplete : ∃ symbol bids asks, SnapshotMembers root symbol bids asks
  · obtain ⟨symbolItem, bids, asks, hsymbol, hbids, hasks⟩ := hcomplete
    obtain ⟨symbol, rfl⟩ := htexts "symbol" List.mem_cons_self symbolItem hsymbol
    have hreads := received_parseBookSnapshot hparse (hstrings _ _ hsymbol) hsymbol hbids hasks
    have hshort : root.Short [("symbol", 15)] ↔ symbol.length < 15 := by
      simp [Json.Short, hsymbol]
    constructor
    · rintro hindependent _ _ _ ⟨hsymbol', hbids', hasks'⟩
      cases hsymbol.symm.trans hsymbol'
      cases hbids.symm.trans hbids'
      cases hasks.symm.trans hasks'
      obtain ⟨outcome, hfirst, hsecond⟩ := hindependent
        (.constant (cjson.ofInt 0) 0) (.constant (cjson.ofInt 0) 1)
      rw [hreads] at hfirst hsecond
      split_ifs at hfirst with hholds
      · have hholdsSecond :
            (SnapshotPrior.constant (cjson.ofInt 0) 1).snapshot.symbol.Holds symbol := hholds
        rw [if_pos hholdsSecond] at hsecond
        refine ⟨hshort.mpr ((CharArray.filled_holds_iff (by decide) _).mp hholds), ?_⟩
        have hsame := Option.some.inj (Except.ok.inj (hfirst.trans hsecond.symm))
        intro level hlevel
        rcases List.mem_append.mp hlevel with hbid | hask
        · exact levels_of_levelEntries_eq (congrArg (fun parts => parts.2.1) hsame) level hbid
        · exact levels_of_levelEntries_eq (congrArg (fun parts => parts.2.2) hsame) level hask
    · intro hcondition
      obtain ⟨hsymbolShort, hlevels⟩ := hcondition _ _ _ ⟨hsymbol, hbids, hasks⟩
      intro first second
      have hholds : ∀ prior : SnapshotPrior α, prior.snapshot.symbol.Holds symbol :=
        fun prior => Or.inl (hshort.mp hsymbolShort)
      rw [hreads first, hreads second, if_pos (hholds first), if_pos (hholds second)]
      refine ⟨_, rfl, ?_⟩
      rw [levelEntries_eq_of_levels
          (fun level hlevel => hlevels level (List.mem_append_left _ hlevel))
          second.bids first.bids,
        levelEntries_eq_of_levels
          (fun level hlevel => hlevels level (List.mem_append_right _ hlevel)) second.asks
          first.asks]
  · refine iff_of_true ?_ fun symbol bids asks hmembers =>
      absurd ⟨symbol, bids, asks, hmembers⟩ hcomplete
    exact independent_of_false fun prior =>
      ⟨_, parseBookSnapshot_of_incomplete hparse hcomplete prior⟩

theorem maxOrders_of_parse {prior : SnapshotPrior α} {returned : Bool} {after : SnapshotBuffer α}
    (hresult : prior.parse cjson json = .ok (returned, after)) :
    after.maxOrders = prior.snapshot.maxOrders := by
  unfold SnapshotPrior.parse parseBookSnapshot at hresult
  split at hresult
  · cases hresult
    rfl
  · split at hresult
    next symbol bids asks _ _ _ =>
      cases htext : symbol.stringValue with
      | error fault =>
          rw [htext] at hresult
          cases hresult
      | ok text =>
          rw [htext] at hresult
          cases hresult
          rfl
    · cases hresult
      rfl

end Parse

/-! ## All messages -/

section Messages

variable (cjson : CJson α) (json : CString)

/-- These members of the message, when they are there, are strings. -/
def TextsIn (names : List String) : Prop :=
  ∀ root, cjson.parse json = some root → root.Texts names

/-- When the message is complete, its texts leave room for a NUL. -/
def WrittenTexts (members : List String) (texts : List (String × Nat)) : Prop :=
  ∀ root, cjson.parse json = some root → root.Complete members → root.Short texts

/-- When the snapshot is complete, its symbol leaves room for a NUL and its levels have a
price and a quantity. -/
def WrittenSnapshot : Prop :=
  ∀ root, cjson.parse json = some root → ∀ symbol bids asks,
    SnapshotMembers root symbol bids asks →
      root.Short [("symbol", 15)] ∧ ∀ level ∈ bids ++ asks, level.IsLevel

variable {cjson json} in
/-- A text that is no JSON is refused, whatever the memory held. -/
theorem independent_iff_of_parse {Prior Buffer Message : Type}
    {parse : Prior → Except Fault (Bool × Buffer)} {read : Buffer → Except Fault Message}
    {condition : Json α → Prop}
    (hnone : cjson.parse json = none → ∀ prior, ∃ after, parse prior = .ok (false, after))
    (hsome : ∀ root, cjson.parse json = some root → (Independent parse read ↔ condition root)) :
    Independent parse read ↔ ∀ root, cjson.parse json = some root → condition root := by
  cases hparse : cjson.parse json with
  | none =>
      refine iff_of_true (independent_of_false (hnone hparse)) ?_
      rintro root ⟨⟩
  | some root =>
      rw [hsome root hparse]
      simp only [Option.some.injEq, forall_eq']

/-- For every text whose members have the types that are expected, the parsers give the
same whatever the memory held before exactly when the texts are shorter than what is
copied of them and no level lacks its price or its quantity. The field `max_orders` of a
snapshot, which is no member of the text, is never written. -/
theorem parsers_independent_iff
    (hstrings : ∀ root, cjson.parse json = some root → root.PlainStrings) :
    (TextsIn cjson json (orderTexts.map Prod.fst) →
      (Independent (parseOrderMessage cjson json) OrderBuffer.read ↔
        WrittenTexts cjson json orderMembers orderTexts)) ∧
    (TextsIn cjson json (tradeTexts.map Prod.fst) →
      (Independent (parseTradeMessage cjson json) TradeBuffer.read ↔
        WrittenTexts cjson json tradeMembers tradeTexts)) ∧
    (TextsIn cjson json ["symbol"] →
      (Independent (SnapshotPrior.parse cjson json) SnapshotBuffer.readMembers ↔
        WrittenSnapshot cjson json)) ∧
    ∀ prior returned after, SnapshotPrior.parse cjson json prior = .ok (returned, after) →
      after.maxOrders = prior.snapshot.maxOrders := by
  refine ⟨?_, ?_, ?_, fun prior returned after hresult => maxOrders_of_parse hresult⟩
  · intro htexts
    apply independent_iff_of_parse
    · intro hparse prior
      exact ⟨prior, by rw [parseOrderMessage, hparse]⟩
    · intro root hparse
      exact parseOrderMessage_independent_iff hparse (hstrings root hparse) (htexts root hparse)
  · intro htexts
    apply independent_iff_of_parse
    · intro hparse prior
      exact ⟨prior, by rw [parseTradeMessage, hparse]⟩
    · intro root hparse
      exact parseTradeMessage_independent_iff hparse (hstrings root hparse) (htexts root hparse)
  · intro htexts
    apply independent_iff_of_parse
    · intro hparse prior
      exact ⟨prior.snapshot, by rw [SnapshotPrior.parse, parseBookSnapshot, hparse]⟩
    · intro root hparse
      exact parseBookSnapshot_independent_iff hparse (hstrings root hparse) (htexts root hparse)

end Messages

/-- An order with an id, as JSON. -/
def orderNamed (orderId : CString) : Json ℚ :=
  .object [("order_id".toList, .string orderId), ("trader_id".toList, .string "T1".toList),
    ("symbol".toList, .string "AAPL".toList), ("price".toList, .number 10),
    ("quantity".toList, .number 5), ("is_buy".toList, .bool true)]

/-- A library that knows that text. -/
def orderNamedJson (orderId : CString) : CJson ℚ :=
  CJson.table [("order".toList, orderNamed orderId)] []

/-- An order with a short id is parsed alike into any memory. -/
theorem parsers_independent_iff_short :
    Independent (parseOrderMessage (orderNamedJson "O1".toList) "order".toList)
      OrderBuffer.read := by
  have hroot : ∀ root, (orderNamedJson "O1".toList).parse "order".toList = some root →
      root = orderNamed "O1".toList := by
    rintro root ⟨⟩
    rfl
  refine ((parsers_independent_iff (orderNamedJson "O1".toList) "order".toList ?_).1 ?_).mpr ?_
  · intro root hparse
    rw [hroot root hparse]
    apply Json.plainStrings_object
    decide
  · intro root hparse name hname item hitem
    rw [hroot root hparse] at hitem
    simp only [orderTexts, List.map_cons, List.map_nil, List.mem_cons, List.not_mem_nil,
      or_false] at hname
    rcases hname with rfl | rfl | rfl <;> cases hitem <;> exact ⟨_, rfl⟩
  · intro root hparse _ limit hlimit text htext
    rw [hroot root hparse] at htext
    simp only [orderTexts, List.mem_cons, List.not_mem_nil, or_false] at hlimit
    rcases hlimit with rfl | rfl | rfl <;> cases htext <;> decide

/-- Thirty-one characters. -/
def longId : CString := List.replicate 31 'A'

/-- An order with an id of thirty-one characters can be read from a struct of zeros, and
cannot be read from one that held no NUL. -/
theorem long_id_depends_on_memory :
    let parse := parseOrderMessage (orderNamedJson longId) "order".toList
    (received OrderBuffer.read (parse (.zero 0))).isOk = true ∧
      received OrderBuffer.read (parse (.unterminated 0)) = .error .outOfBounds ∧
      ¬ Independent parse OrderBuffer.read := by
  intro parse
  have hopen : received OrderBuffer.read (parse (.unterminated 0)) = .error .outOfBounds := by
    decide +kernel
  refine ⟨by decide +kernel, hopen, fun hindependent => ?_⟩
  obtain ⟨outcome, _, hsecond⟩ := hindependent (.zero 0) (.unterminated 0)
  cases hopen.symm.trans hsecond

end QuantTrading
