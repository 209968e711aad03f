import QuantTrading.Client.MarketMonitor
import QuantTrading.Server.MarketData
import QuantTrading.Server.Registry

/-! # The registries of symbols

The handlers of the server, the market data service and the market monitor of the client keep
symbols in arrays of sixteen characters. All three compare the stored symbol with the whole
symbol of a call, so that a longer one is stored again and never found.
-/

namespace QuantTrading

namespace ServerHandlers

variable {α : Type*} {handlers : ServerHandlers α} {symbol : CString}

/-- The index of the entry that the loop of `server_handlers_get_order_book` stops at. -/
def findIndex (handlers : ServerHandlers α) (symbol : CString) : Option Nat :=
  (handlers.findBook symbol).map Prod.fst

theorem findIndex_eq (handlers : ServerHandlers α) (symbol : CString) :
    handlers.findIndex symbol = handlers.symbols.findIdx? (· = symbol) := by
  rw [findIndex, findBook, symbols, List.findIdx?_map]
  change Option.map _ (Option.bind (List.findIdx? (fun entry => decide (entry.symbol = symbol))
    handlers.books) _) = List.findIdx? (fun entry => decide (entry.symbol = symbol)) handlers.books
  cases hfind : handlers.books.findIdx? fun entry => entry.symbol = symbol with
  | none => rfl
  | some index =>
      obtain ⟨hlt, _⟩ := List.findIdx?_eq_some_iff_getElem.mp hfind
      rw [Option.bind_some, List.getElem?_eq_getElem hlt]
      rfl

/-- The book that is returned is the one of that entry. -/
theorem getOrderBook_eq (handlers : ServerHandlers α) (symbol : CString) :
    handlers.getOrderBook symbol =
      (handlers.findIndex symbol).bind fun index =>
        handlers.books[index]?.map RegisteredBook.book := by
  rw [getOrderBook, findIndex]
  cases hfind : handlers.findBook symbol with
  | none => rfl
  | some found =>
      obtain ⟨index, registered⟩ := found
      rw [Option.map_some, Option.map_some, Option.bind_some, (findBook_eq_some hfind).1]
      rfl

theorem findBook_eq_none_iff : handlers.findBook symbol = none ↔ symbol ∉ handlers.symbols := by
  rw [← Option.map_eq_none_iff (f := Prod.fst), ← findIndex, findIndex_eq]
  exact NameRegistry.findIdx?_eq_none_iff_notMem

/-- The handlers as a registry of symbols. -/
def registry (α : Type*) : NameRegistry (ServerHandlers α) CString where
  names := symbols
  lookup := findIndex
  register := addOrderBook
  Admits handlers := handlers.books.length < maxSymbols ∧ handlers.tradeBroadcaster ≠ none
  cut := List.take 15
  cut_cut := take_take_symbol
  lookup_eq := findIndex_eq
  names_of_mem {handlers symbol} hmem := by
    unfold addOrderBook
    split_ifs with hfull
    · rfl
    · cases hfind : handlers.findBook symbol with
      | none => exact absurd hmem (findBook_eq_none_iff.mp hfind)
      | some found => rfl
  refused {handlers symbol} hnot hrefused := by
    unfold addOrderBook
    split_ifs with hfull
    · exact ⟨(by decide : (-1 : Int) ≠ 0), rfl⟩
    · rw [findBook_eq_none_iff.mpr hnot]
      have hmissing : handlers.tradeBroadcaster = none := by
        by_contra hsome
        exact hrefused ⟨not_le.mp hfull, hsome⟩
      rw [hmissing]
      exact ⟨(by decide : (-1 : Int) ≠ 0), rfl⟩
  admitted {handlers symbol} hnot hadmits := by
    obtain ⟨hroom, hbroadcaster⟩ := hadmits
    obtain ⟨broadcaster, hsome⟩ := Option.ne_none_iff_exists'.mp hbroadcaster
    unfold addOrderBook
    rw [if_neg (not_le.mpr hroom), findBook_eq_none_iff.mpr hnot, hsome]
    exact ⟨rfl, List.map_append⟩

end ServerHandlers

/-- The registries are sound in every state that registrations lead to, each for its own
sequence of symbols, if and only if every symbol that is registered while there is room fits an
entry: its first fifteen characters are all it has. -/
theorem registries_sound_iff {α : Type} (orders : Nat → Order α)
    (broadcaster : Option TradeBroadcaster) (maxDepth : Nat) (maxWatched : Int)
    (registered updated watched : List CString) :
    ((∀ count, (ServerHandlers.registry α).Sound
        (Transition.run (ServerHandlers.registry α).perform
          ⟨ServerHandlers.create orders broadcaster, []⟩ (registered.take count))) ↔
      Transition.Along (ServerHandlers.registry α).perform (ServerHandlers.registry α).Fits
        ⟨ServerHandlers.create orders broadcaster, []⟩ registered) ∧
    ((∀ count, (MarketData.registry α).Sound
        (Transition.run (MarketData.registry α).perform
          ⟨MarketData.create broadcaster maxDepth, []⟩ (updated.take count))) ↔
      Transition.Along (MarketData.registry α).perform (MarketData.registry α).Fits
        ⟨MarketData.create broadcaster maxDepth, []⟩ updated) ∧
    ((∀ count, (MarketMonitor.registry α).Sound
        (Transition.run (MarketMonitor.registry α).perform
          ⟨MarketMonitor.create maxWatched, []⟩ (watched.take count))) ↔
      Transition.Along (MarketMonitor.registry α).perform (MarketMonitor.registry α).Fits
        ⟨MarketMonitor.create maxWatched, []⟩ watched) :=
  ⟨NameRegistry.sound_iff_fits rfl registered, NameRegistry.sound_iff_fits rfl updated,
    NameRegistry.sound_iff_fits rfl watched⟩

/-- A symbol of sixteen characters is registered twice under its first fifteen and not found. -/
theorem long_symbol_registered_twice :
    let registry := ServerHandlers.registry ℚ
    let symbol := "ABCDEFGHIJKLMNOP".toList
    let start : NameRegistry.Log (ServerHandlers ℚ) CString :=
      ⟨ServerHandlers.create (fun _ => Order.sample "" 0 0 true 0) (some ⟨0⟩), []⟩
    (Transition.run registry.perform start [symbol, symbol]).state.symbols =
        ["ABCDEFGHIJKLMNO".toList, "ABCDEFGHIJKLMNO".toList] ∧
      ¬ ∀ count, registry.Sound
        (Transition.run registry.perform start ([symbol, symbol].take count)) := by
  intro registry symbol start
  have hsymbols : (Transition.run registry.perform start [symbol, symbol]).state.symbols =
      ["ABCDEFGHIJKLMNO".toList, "ABCDEFGHIJKLMNO".toList] := by
    decide +kernel
  refine ⟨hsymbols, fun hsound => ?_⟩
  have hdistinct := (hsound 2).distinct
  change (Transition.run registry.perform start [symbol, symbol]).state.symbols.Nodup at hdistinct
  rw [hsymbols] at hdistinct
  exact absurd hdistinct (by decide)

end QuantTrading
