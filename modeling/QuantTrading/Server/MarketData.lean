import QuantTrading.Foundation.NameRegistry
import QuantTrading.Server.Handlers
import QuantTrading.Utils.CMemory

/-! # The market data service

`market_data.c` keeps a book for every symbol that it was told about. The books are created but
never filled. A symbol is copied into fifteen characters and compared as a whole, as in the other
registries of the program; a snapshot is looked up by the same loop.
-/

namespace QuantTrading

/-- `MAX_SYMBOLS` of `market_data.c`. -/
def maxMarketSymbols : Nat := 100

/-- An entry of `symbols` and `books`; the book is missing when it could not be created. -/
structure MarketBook (α : Type) where
  symbol : CString
  book : Option (OrderBook α Nat)

/-- `struct MarketData`, without the snapshot thread, which changes nothing. -/
structure MarketData (α : Type) where
  books : List (MarketBook α)
  tradeBroadcaster : Option TradeBroadcaster
  maxDepth : Nat

namespace MarketData

variable {α : Type}

/-- `market_data_create`. -/
def create (tradeBroadcaster : Option TradeBroadcaster) (maxDepth : Nat) : MarketData α where
  books := []
  tradeBroadcaster := tradeBroadcaster
  maxDepth := maxDepth

section Calls

variable (market : MarketData α)

/-- The symbols with a book. -/
def names : List CString :=
  market.books.map MarketBook.symbol

/-- The loop that the functions share: the first entry with a symbol. -/
def findSymbol (symbol : CString) : Option Nat :=
  market.books.findIdx? fun entry => entry.symbol = symbol

/-- `market_data_update_book`: the return value and the service after the call. The book that
is passed in is not copied. -/
def updateBook (symbol : CString) : Int × MarketData α :=
  match market.findSymbol symbol with
  | some _ => (0, market)
  | none =>
      if market.books.length < maxMarketSymbols then
        let entry : MarketBook α :=
          { symbol := symbol.take 15, book := OrderBook.create market.tradeBroadcaster }
        (0, { market with books := market.books ++ [entry] })
      else (-1, market)

end Calls

variable {market : MarketData α} {symbol : CString}

theorem findSymbol_eq (market : MarketData α) (symbol : CString) :
    market.findSymbol symbol = market.names.findIdx? (· = symbol) := by
  rw [findSymbol, names, List.findIdx?_map]
  rfl

theorem findSymbol_eq_none_iff : market.findSymbol symbol = none ↔ symbol ∉ market.names := by
  rw [findSymbol_eq]
  exact NameRegistry.findIdx?_eq_none_iff_notMem

/-- The service as a registry of symbols. -/
def registry (α : Type) : NameRegistry (MarketData α) CString where
  names := names
  lookup := findSymbol
  register := updateBook
  Admits market := market.books.length < maxMarketSymbols
  cut := List.take 15
  cut_cut := take_take_symbol
  lookup_eq := findSymbol_eq
  names_of_mem {market symbol} hmem := by
    rw [updateBook]
    cases hfind : market.findSymbol symbol with
    | none => exact absurd hmem (findSymbol_eq_none_iff.mp hfind)
    | some index => rfl
  refused {market symbol} hnot hfull := by
    rw [updateBook, findSymbol_eq_none_iff.mpr hnot]
    dsimp only
    rw [if_neg hfull]
    exact ⟨(by decide : (-1 : Int) ≠ 0), rfl⟩
  admitted {market symbol} hnot hroom := by
    rw [updateBook, findSymbol_eq_none_iff.mpr hnot]
    dsimp only
    rw [if_pos hroom]
    exact ⟨rfl, List.map_append⟩

end MarketData

end QuantTrading
