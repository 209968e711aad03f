import QuantTrading.Protocol.BookSnapshots
import QuantTrading.Protocol.Validation

/-! # Validation of the messages of the server

The checks of `protocol_validation.c` for trades and snapshots. The arrays of a snapshot
are read in memory, level by level, up to the counts of the struct.
-/

namespace QuantTrading

/-- The error texts of `validate_trade_message`, each with the value it quotes. -/
inductive TradeError (α : Type*) where
  | invalidSymbol (symbol : CString) : TradeError α
  | invalidBuyOrderId (orderId : CString) : TradeError α
  | invalidSellOrderId (orderId : CString) : TradeError α
  | invalidPrice (price : α) : TradeError α
  | invalidQuantity (quantity : Int) : TradeError α
deriving DecidableEq, Repr

/-- The error texts of `validate_book_snapshot`. -/
inductive SnapshotError (α : Type*) where
  | invalidSymbol (symbol : CString) : SnapshotError α
  | invalidNumberOfOrders (bids asks : Int) : SnapshotError α
  | invalidBid (price : α) (quantity : Int) : SnapshotError α
  | invalidAsk (price : α) (quantity : Int) : SnapshotError α
deriving DecidableEq, Repr

variable {α : Type} [LT α] [DecidableLT α] (limits : PriceLimits α)

/-- `validate_trade_message`: the first check that fails. -/
def validateTradeMessage (trade : TradeMessage α) : Except (TradeError α) Unit :=
  if !validateSymbol trade.symbol then .error (.invalidSymbol trade.symbol)
  else if !validateOrderId trade.buyOrderId then .error (.invalidBuyOrderId trade.buyOrderId)
  else if !validateOrderId trade.sellOrderId then .error (.invalidSellOrderId trade.sellOrderId)
  else if !validatePrice limits trade.price then .error (.invalidPrice trade.price)
  else if !validateQuantity trade.quantity then .error (.invalidQuantity trade.quantity)
  else .ok ()

/-- The price and the quantity behind two pointers, at an index. -/
def LevelArrays.readEntry (arrays : Option (LevelArrays α)) (index : Nat) :
    Except Fault (α × Int) :=
  match arrays with
  | none => .error .nullPointer
  | some arrays =>
      match arrays.entryAt index with
      | some entry => .ok entry
      | none => .error .outOfBounds

/-- The two checks of a level. -/
def validateLevel (entry : α × Int) : Bool :=
  validatePrice limits entry.1 && validateQuantity entry.2

/-- The loop over the levels of a side, at the indices that are left. The error of the
side quotes the level. -/
def validateLevels (arrays : Option (LevelArrays α)) (invalid : α → Int → SnapshotError α) :
    List Nat → Except Fault (Except (SnapshotError α) Unit)
  | [] => .ok (.ok ())
  | index :: rest => do
      let entry ← LevelArrays.readEntry arrays index
      if !validateLevel limits entry then .ok (.error (invalid entry.1 entry.2))
      else validateLevels arrays invalid rest

/-- `validate_book_snapshot`. A count below zero is refused before its side is read. -/
def validateBookSnapshot (snapshot : SnapshotBuffer α) :
    Except Fault (Except (SnapshotError α) Unit) := do
  let symbol ← snapshot.symbol.text
  if !validateSymbol symbol then .ok (.error (.invalidSymbol symbol))
  else if snapshot.numBids < 0 ∨ snapshot.numAsks < 0 then
    .ok (.error (.invalidNumberOfOrders snapshot.numBids snapshot.numAsks))
  else
    match ← validateLevels limits snapshot.bids .invalidBid
        (List.range snapshot.numBids.toNat) with
    | .error error => .ok (.error error)
    | .ok () =>
        validateLevels limits snapshot.asks .invalidAsk (List.range snapshot.numAsks.toNat)

variable {limits}

/-! ## What is accepted -/

theorem validateTradeMessage_ok_iff {trade : TradeMessage α} :
    validateTradeMessage limits trade = .ok () ↔
      validateSymbol trade.symbol = true ∧ validateOrderId trade.buyOrderId = true ∧
        validateOrderId trade.sellOrderId = true ∧ validatePrice limits trade.price = true ∧
        validateQuantity trade.quantity = true := by
  unfold validateTradeMessage
  split_ifs <;> simp_all

theorem validateOrderMessage_isOk_iff {order : OrderMessage α} :
    (validateOrderMessage limits order).isOk = true ↔
      validateOrderId order.orderId = true ∧ validateTraderId order.traderId = true ∧
        validateSymbol order.symbol = true ∧ validatePrice limits order.price = true ∧
        validateQuantity order.quantity = true := by
  unfold validateOrderMessage
  split_ifs <;> simp_all [Except.isOk, Except.toBool]

/-- The symbols that are traded fit every field for a symbol. -/
theorem length_of_validateSymbol {symbol : CString} (hvalid : validateSymbol symbol = true) :
    symbol.length < maxSymbolLength := by
  unfold validateSymbol at hvalid
  split_ifs at hvalid with hlength
  exact not_le.mp fun hle => hlength (Or.inr hle)

omit [LT α] [DecidableLT α] in
theorem readEntries_eq_mapM (arrays : Option (LevelArrays α)) (count : Int) :
    LevelArrays.readEntries arrays count =
      (List.range count.toNat).mapM (LevelArrays.readEntry arrays) := by
  cases arrays <;> rfl

/-- Levels that can be read and are valid are passed over. -/
theorem validateLevels_of_valid {arrays : Option (LevelArrays α)}
    (invalid : α → Int → SnapshotError α) {indices : List Nat} {entries : List (α × Int)}
    (hread : indices.mapM (LevelArrays.readEntry arrays) = .ok entries)
    (hvalid : ∀ entry ∈ entries, validateLevel limits entry = true) :
    validateLevels limits arrays invalid indices = .ok (.ok ()) := by
  induction indices generalizing entries with
  | nil => rfl
  | cons index rest ih =>
      rw [List.mapM_cons] at hread
      cases hentry : LevelArrays.readEntry arrays index with
      | error fault =>
          rw [hentry] at hread
          cases hread
      | ok entry =>
          cases hrest : rest.mapM (LevelArrays.readEntry arrays) with
          | error fault =>
              rw [hentry, hrest] at hread
              cases hread
          | ok others =>
              rw [hentry, hrest] at hread
              cases hread
              obtain ⟨hfirst, hothers⟩ := List.forall_mem_cons.mp hvalid
              rw [validateLevels, hentry]
              change (if _ then _ else _) = _
              rw [hfirst, if_neg (by decide)]
              exact ih hrest hothers

/-- A readable snapshot of a traded symbol with valid levels is accepted. -/
theorem validateBookSnapshot_of_valid {buffer : SnapshotBuffer α} {snapshot : BookSnapshot α}
    (hread : buffer.read = .ok snapshot) (hnumBids : 0 ≤ buffer.numBids)
    (hnumAsks : 0 ≤ buffer.numAsks) (hsymbol : validateSymbol snapshot.symbol = true)
    (hbids : ∀ entry ∈ snapshot.bids, validateLevel limits entry = true)
    (hasks : ∀ entry ∈ snapshot.asks, validateLevel limits entry = true) :
    validateBookSnapshot limits buffer = .ok (.ok ()) := by
  obtain ⟨htext, _, hreadBids, hreadAsks⟩ := SnapshotBuffer.read_eq_ok hread
  rw [readEntries_eq_mapM] at hreadBids hreadAsks
  have hpassed := validateLevels_of_valid .invalidBid hreadBids hbids
  rw [validateBookSnapshot, htext]
  change (if _ then _ else if _ then _ else _) = _
  rw [hsymbol, if_neg (by decide), if_neg (by omega), hpassed]
  exact validateLevels_of_valid .invalidAsk hreadAsks hasks

end QuantTrading
