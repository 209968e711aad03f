import QuantTrading.Protocol.Messages

/-! # Book snapshots in memory

`BookSnapshot` keeps the levels of each side in two arrays behind pointers.
`parse_book_snapshot` allocates the arrays and writes the levels that have a price and
a quantity; the other entries stay as the memory was.
-/

namespace QuantTrading

/-- The arrays of prices and of quantities of one side. -/
structure LevelArrays (α : Type) where
  prices : List α
  quantities : List Int
deriving DecidableEq, Repr

/-- What memory holds before anything is written to it. -/
structure FreshMemory (α : Type) where
  prices : Nat → α
  quantities : Nat → Int

variable {α : Type}

/-- The two calls of `malloc` for a side with `count` levels. -/
def FreshMemory.malloc (fresh : FreshMemory α) (count : Nat) : LevelArrays α where
  prices := (List.range count).map fresh.prices
  quantities := (List.range count).map fresh.quantities

namespace LevelArrays

/-- The price and the quantity at an index, when it is inside both arrays. -/
def entryAt (arrays : LevelArrays α) (index : Nat) : Option (α × Int) :=
  match arrays.prices[index]?, arrays.quantities[index]? with
  | some price, some quantity => some (price, quantity)
  | _, _ => none

/-- The first entries of the arrays behind two pointers. -/
def readEntries (arrays : Option (LevelArrays α)) (count : Int) :
    Except Fault (List (α × Int)) :=
  (List.range count.toNat).mapM fun index =>
    match arrays with
    | none => .error .nullPointer
    | some arrays =>
        match arrays.entryAt index with
        | some entry => .ok entry
        | none => .error .outOfBounds

theorem entryAt_malloc (fresh : FreshMemory α) {count index : Nat} (hlt : index < count) :
    (fresh.malloc count).entryAt index = some (fresh.prices index, fresh.quantities index) := by
  simp [entryAt, FreshMemory.malloc, hlt]

/-- Reading arrays that are long enough. -/
theorem readEntries_eq_ok {arrays : LevelArrays α} {count : Int} {entry : Nat → α × Int}
    (hentry : ∀ index < count.toNat, arrays.entryAt index = some (entry index)) :
    readEntries (some arrays) count = .ok ((List.range count.toNat).map entry) := by
  apply mapM_eq_ok
  intro index hindex
  dsimp only
  rw [hentry index (List.mem_range.mp hindex)]

theorem length_of_readEntries {arrays : Option (LevelArrays α)} {count : Int}
    {entries : List (α × Int)} (hread : readEntries arrays count = .ok entries) :
    entries.length = count.toNat := by
  rw [length_of_mapM_eq_ok hread, List.length_range]

end LevelArrays

section Parse

variable (cjson : CJson α)

/-- The price and the quantity of a level, when it has both. -/
def levelTerms (level : Json α) : Option (α × Int) :=
  match level.getObjectItem "price", level.getObjectItem "quantity" with
  | some price, some quantity => some (price.valuedouble cjson, quantity.valueint cjson)
  | _, _ => none

/-- The body of the loops of `parse_book_snapshot`. -/
def writeLevel (arrays : LevelArrays α) (index : Nat) (level : Json α) : LevelArrays α :=
  match levelTerms cjson level with
  | some (price, quantity) =>
      { prices := arrays.prices.set index price
        quantities := arrays.quantities.set index quantity }
  | none => arrays

/-- A loop of `parse_book_snapshot`, from an index on. -/
def writeLevels (arrays : LevelArrays α) : Nat → List (Json α) → LevelArrays α
  | _, [] => arrays
  | index, level :: rest => writeLevels (writeLevel cjson arrays index level) (index + 1) rest

variable {cjson : CJson α}

theorem entryAt_writeLevel (arrays : LevelArrays α) (index : Nat) (level : Json α) (other : Nat) :
    (writeLevel cjson arrays index level).entryAt other =
      if other = index then
        (arrays.entryAt other).map fun old => (levelTerms cjson level).getD old
      else arrays.entryAt other := by
  unfold writeLevel
  cases levelTerms cjson level with
  | none => simp
  | some terms =>
      simp only [LevelArrays.entryAt, List.getElem?_set]
      by_cases hother : other = index
      · subst hother
        by_cases hprices : other < arrays.prices.length
        · by_cases hquantities : other < arrays.quantities.length
          · simp [hprices, hquantities]
          · simp [hprices, hquantities]
        · simp [hprices]
      · simp [hother, Ne.symm hother]

/-- The levels that have a price and a quantity are written at their index. -/
theorem entryAt_writeLevels (arrays : LevelArrays α) (index : Nat) (levels : List (Json α))
    (other : Nat) :
    (writeLevels cjson arrays index levels).entryAt other =
      if index ≤ other then
        (arrays.entryAt other).map fun old =>
          ((levels[other - index]?).bind (levelTerms cjson)).getD old
      else arrays.entryAt other := by
  induction levels generalizing arrays index with
  | nil => simp [writeLevels]
  | cons level rest ih =>
      rw [writeLevels, ih, entryAt_writeLevel]
      rcases Nat.lt_trichotomy other index with hlt | rfl | hgt
      · rw [if_neg (by omega), if_neg (by omega), if_neg (by omega)]
      · rw [if_neg (by omega), if_pos rfl, if_pos le_rfl, Nat.sub_self]
        rfl
      · have hsucc : other - index = (other - (index + 1)) + 1 := by omega
        rw [if_pos (Nat.succ_le_of_lt hgt), if_neg hgt.ne', if_pos hgt.le, hsucc,
          List.getElem?_cons_succ]

/-- The entries of a side after parsing. An entry whose level lacks the price or the
quantity is what the memory held. -/
theorem readEntries_writeLevels (fresh : FreshMemory α) (levels : List (Json α)) :
    LevelArrays.readEntries
        (some (writeLevels cjson (fresh.malloc levels.length) 0 levels)) levels.length =
      .ok ((List.range levels.length).map fun index =>
        ((levels[index]?).bind (levelTerms cjson)).getD
          (fresh.prices index, fresh.quantities index)) := by
  apply LevelArrays.readEntries_eq_ok
  intro index hindex
  have hlt : index < levels.length := hindex
  rw [entryAt_writeLevels, if_pos (Nat.zero_le _), Nat.sub_zero,
    LevelArrays.entryAt_malloc fresh hlt]
  rfl

end Parse

/-- `BookSnapshot` in memory. The arrays of a side are `none` when nothing may be read
through its pointers. -/
structure SnapshotBuffer (α : Type) where
  symbol : CharArray 16
  numBids : Int
  numAsks : Int
  maxOrders : Nat
  bids : Option (LevelArrays α)
  asks : Option (LevelArrays α)

/-- A struct filled with zeros. -/
def SnapshotBuffer.zero : SnapshotBuffer α where
  symbol := .zero 16
  numBids := 0
  numAsks := 0
  maxOrders := 0
  bids := none
  asks := none

/-- The snapshot as it is read from the struct. -/
def SnapshotBuffer.read (buffer : SnapshotBuffer α) : Except Fault (BookSnapshot α) := do
  let symbol ← buffer.symbol.text
  let bids ← LevelArrays.readEntries buffer.bids buffer.numBids
  let asks ← LevelArrays.readEntries buffer.asks buffer.numAsks
  .ok { symbol := symbol, maxOrders := buffer.maxOrders, bids := bids, asks := asks }

theorem SnapshotBuffer.read_eq_ok {buffer : SnapshotBuffer α} {snapshot : BookSnapshot α}
    (hread : buffer.read = .ok snapshot) :
    buffer.symbol.text = .ok snapshot.symbol ∧ snapshot.maxOrders = buffer.maxOrders ∧
      LevelArrays.readEntries buffer.bids buffer.numBids = .ok snapshot.bids ∧
      LevelArrays.readEntries buffer.asks buffer.numAsks = .ok snapshot.asks := by
  unfold SnapshotBuffer.read at hread
  cases hsymbol : buffer.symbol.text with
  | error fault =>
      rw [hsymbol] at hread
      cases hread
  | ok symbol =>
      cases hbids : LevelArrays.readEntries buffer.bids buffer.numBids with
      | error fault =>
          rw [hsymbol, hbids] at hread
          cases hread
      | ok bids =>
          cases hasks : LevelArrays.readEntries buffer.asks buffer.numAsks with
          | error fault =>
              rw [hsymbol, hbids, hasks] at hread
              cases hread
          | ok asks =>
              rw [hsymbol, hbids, hasks] at hread
              cases hread
              exact ⟨rfl, rfl, rfl, rfl⟩

/-- `parse_book_snapshot`: whether it returns true, and the struct afterwards. The calls
of `malloc` give memory that holds anything, or one of them fails. The field
`max_orders` is not written. -/
def parseBookSnapshot (cjson : CJson α) (json : CString)
    (fresh : Option (FreshMemory α × FreshMemory α)) (snapshot : SnapshotBuffer α) :
    Except Fault (Bool × SnapshotBuffer α) :=
  match cjson.parse json with
  | none => .ok (false, snapshot)
  | some root =>
      match root.getObjectItem "symbol", root.getObjectItem "bids", root.getObjectItem "asks" with
      | some symbol, some (.array bids), some (.array asks) => do
          let symbolText ← symbol.stringValue
          let counted : SnapshotBuffer α :=
            { snapshot with
              symbol := snapshot.symbol.strncpy symbolText
              numBids := bids.length
              numAsks := asks.length }
          match fresh with
          -- what was allocated is freed again
          | none => .ok (false, { counted with bids := none, asks := none })
          | some (freshBids, freshAsks) =>
              .ok (true,
                { counted with
                  bids := some (writeLevels cjson (freshBids.malloc bids.length) 0 bids)
                  asks := some (writeLevels cjson (freshAsks.malloc asks.length) 0 asks) })
      | _, _, _ => .ok (false, snapshot)

end QuantTrading
