import QuantTrading.Client.ClientApp
import QuantTrading.Foundation.NameRegistry
import QuantTrading.Server.Handlers

/-! # The market monitor

The symbols that a client watches, with what it last heard of them. `market_monitor_subscribe`
copies a symbol into fifteen characters and compares the stored ones with the whole symbol. It
looks at its capacity before it looks for the symbol.
-/

namespace QuantTrading

/-- An entry of `symbols`: the book and the trade it shows, and whether the book is new. -/
structure MonitoredSymbol (α : Type) extends MarketSymbol α where
  latestBook : Option (BookSnapshot α)
  hasUpdate : Bool

/-- `struct MarketMonitor`, without what the display alone uses. -/
structure MarketMonitor (α : Type) where
  symbols : List (MonitoredSymbol α)
  maxSymbols : Int

namespace MarketMonitor

variable {α : Type}

/-- `market_monitor_create`; the allocation of the array is assumed to succeed. -/
def create (maxSymbols : Int) : MarketMonitor α where
  symbols := []
  maxSymbols := maxSymbols

section Calls

variable (monitor : MarketMonitor α)

/-- The symbols that are watched. -/
def names : List CString :=
  monitor.symbols.map fun entry => entry.symbol

/-- The loop that the functions share: the first entry with a symbol. -/
def findSymbol (symbol : CString) : Option Nat :=
  monitor.symbols.findIdx? fun entry => entry.symbol = symbol

/-- `market_monitor_subscribe`: the return value and the monitor after the call. -/
def subscribe (symbol : CString) : Int × MarketMonitor α :=
  if monitor.maxSymbols ≤ monitor.symbols.length then (-1, monitor)
  else
    match monitor.findSymbol symbol with
    | some _ => (0, monitor)
    | none =>
        let entry : MonitoredSymbol α :=
          { symbol := symbol.take 15, latestTrade := none, latestBook := none, hasUpdate := false }
        (0, { monitor with symbols := monitor.symbols ++ [entry] })

/-- `market_monitor_update_book`. -/
def updateBook (snapshot : BookSnapshot α) : Int × MarketMonitor α :=
  match monitor.findSymbol snapshot.symbol with
  | some index =>
      (0, { monitor with symbols := monitor.symbols.modify index fun entry =>
        { entry with latestBook := some snapshot, hasUpdate := true } })
  | none => (-1, monitor)

/-- `market_monitor_update_trade` for the symbol in the struct of the trade. -/
def updateTrade (symbol : CString) (trade : TradeBuffer α) : Int × MarketMonitor α :=
  match monitor.findSymbol symbol with
  | some index =>
      (0, { monitor with symbols := monitor.symbols.modify index fun entry =>
        { entry with latestTrade := some trade } })
  | none => (-1, monitor)

/-- `market_monitor_clear`. -/
def clear : MarketMonitor α :=
  { monitor with symbols := monitor.symbols.map fun entry => { entry with hasUpdate := false } }

end Calls

variable {monitor : MarketMonitor α} {symbol : CString}

/-- The client program keeps the trades of the monitor. -/
theorem updateTrade_refines {app : ClientApp α}
    (hsame : app.marketMonitor = monitor.symbols.map MonitoredSymbol.toMarketSymbol)
    (trade : TradeBuffer α) :
    (app.updateTrade symbol trade).marketMonitor =
      (monitor.updateTrade symbol trade).2.symbols.map MonitoredSymbol.toMarketSymbol := by
  have hfind : (app.marketMonitor.findIdx? fun entry => entry.symbol = symbol) =
      monitor.findSymbol symbol := by
    rw [hsame, List.findIdx?_map]
    rfl
  unfold ClientApp.updateTrade updateTrade
  rw [hfind]
  cases monitor.findSymbol symbol with
  | none => exact hsame
  | some index =>
      change app.marketMonitor.modify index _ = _
      rw [hsame]
      apply List.ext_getElem?
      intro position
      simp only [List.getElem?_modify, List.getElem?_map]
      cases monitor.symbols[position]? with
      | none => rfl
      | some entry =>
          by_cases hposition : index = position
          · simp [hposition]
          · simp [hposition]

theorem findSymbol_eq (monitor : MarketMonitor α) (symbol : CString) :
    monitor.findSymbol symbol = monitor.names.findIdx? (· = symbol) := by
  rw [findSymbol, names, List.findIdx?_map]
  rfl

theorem findSymbol_eq_none_iff : monitor.findSymbol symbol = none ↔ symbol ∉ monitor.names := by
  rw [findSymbol_eq]
  exact NameRegistry.findIdx?_eq_none_iff_notMem

theorem length_names (monitor : MarketMonitor α) : monitor.names.length = monitor.symbols.length :=
  List.length_map _

theorem subscribe_of_full (hfull : monitor.maxSymbols ≤ monitor.symbols.length)
    (symbol : CString) : monitor.subscribe symbol = (-1, monitor) :=
  if_pos hfull

theorem subscribe_of_mem (hroom : monitor.symbols.length < monitor.maxSymbols)
    (hmem : symbol ∈ monitor.names) : monitor.subscribe symbol = (0, monitor) := by
  rw [subscribe, if_neg (not_le.mpr hroom)]
  cases hfind : monitor.findSymbol symbol with
  | none => exact absurd hmem (findSymbol_eq_none_iff.mp hfind)
  | some index => rfl

/-- A new symbol is stored as far as it fits. -/
theorem subscribe_of_not_mem (hroom : monitor.symbols.length < monitor.maxSymbols)
    (hnot : symbol ∉ monitor.names) :
    ∃ after, monitor.subscribe symbol = (0, after) ∧
      after.names = monitor.names ++ [symbol.take 15] ∧ after.maxSymbols = monitor.maxSymbols := by
  rw [subscribe, if_neg (not_le.mpr hroom), findSymbol_eq_none_iff.mpr hnot]
  exact ⟨_, rfl, List.map_append, rfl⟩

/-- The monitor as a registry of symbols. -/
def registry (α : Type) : NameRegistry (MarketMonitor α) CString where
  names := names
  lookup := findSymbol
  register := subscribe
  Admits monitor := monitor.symbols.length < monitor.maxSymbols
  cut := List.take 15
  cut_cut := take_take_symbol
  lookup_eq := findSymbol_eq
  names_of_mem {monitor symbol} hmem := by
    rcases lt_or_ge (monitor.symbols.length : Int) monitor.maxSymbols with hroom | hfull
    · rw [subscribe_of_mem hroom hmem]
    · rw [subscribe_of_full hfull]
  refused {monitor symbol} _ hfull := by
    rw [subscribe_of_full (not_lt.mp hfull)]
    exact ⟨(by decide : (-1 : Int) ≠ 0), rfl⟩
  admitted {monitor symbol} hnot hroom := by
    obtain ⟨after, hsubscribe, hnames, _⟩ := subscribe_of_not_mem hroom hnot
    rw [hsubscribe]
    exact ⟨rfl, hnames⟩

/-! ## Repeated subscriptions -/

/-- A subscription to a symbol that is watched changes nothing, and one that succeeded can be
repeated. -/
def SubscribeIdempotent (monitor : MarketMonitor α) (symbol : CString) : Prop :=
  Transition.Idempotent (fun monitor : MarketMonitor α => some (monitor.subscribe symbol)) 0
    (symbol ∈ monitor.names) monitor

/-- There is a free entry: for a symbol that is watched one, for a new one that is stored as it
is two. -/
def LeavesRoom (monitor : MarketMonitor α) (symbol : CString) : Prop :=
  (symbol ∈ monitor.names → monitor.symbols.length < monitor.maxSymbols) ∧
    (symbol ∉ monitor.names → monitor.symbols.length < monitor.maxSymbols →
      monitor.symbols.length + 1 < monitor.maxSymbols ∧ symbol.length ≤ 15)

theorem subscribeIdempotent_of_mem (hroom : monitor.symbols.length < monitor.maxSymbols)
    (hmem : symbol ∈ monitor.names) : monitor.SubscribeIdempotent symbol :=
  Transition.idempotent_of_unchanged (congrArg some (subscribe_of_mem hroom hmem))

/-- In a full monitor every subscription fails, also one to a symbol that is watched. -/
theorem subscribeIdempotent_of_full (hfull : monitor.maxSymbols ≤ monitor.symbols.length) :
    monitor.SubscribeIdempotent symbol ↔ symbol ∉ monitor.names := by
  apply Transition.idempotent_iff_of_failed
  intro after
  rw [subscribe_of_full hfull]
  simp

/-- A new subscription can be repeated when its symbol is stored as it is and does not take the
last entry. -/
theorem subscribeIdempotent_of_not_mem (hroom : monitor.symbols.length < monitor.maxSymbols)
    (hnot : symbol ∉ monitor.names) :
    monitor.SubscribeIdempotent symbol ↔
      monitor.symbols.length + 1 < monitor.maxSymbols ∧ symbol.length ≤ 15 := by
  obtain ⟨after, hsubscribe, hnames, hmax⟩ := subscribe_of_not_mem hroom hnot
  have hlength := congrArg List.length hnames
  rw [length_names, List.length_append, length_names, List.length_singleton] at hlength
  have honce : monitor.SubscribeIdempotent symbol ↔
      some (after.subscribe symbol) = some (0, after) :=
    Transition.idempotent_iff_again hnot (congrArg some hsubscribe)
  rw [honce, Option.some.injEq]
  constructor
  · intro hagain
    rcases lt_or_ge (after.symbols.length : Int) after.maxSymbols with hroom' | hfull'
    · refine ⟨by omega, ?_⟩
      by_contra hlong
      -- the symbol is not among the stored ones, and it is stored once more
      have hcut : symbol ∉ after.names := by
        rw [hnames, List.mem_append, List.mem_singleton]
        rintro (hold | heq)
        · exact hnot hold
        · have hshort := congrArg List.length heq
          rw [List.length_take] at hshort
          omega
      obtain ⟨_, hsubscribe', hnames', _⟩ := subscribe_of_not_mem hroom' hcut
      rw [hagain] at hsubscribe'
      cases hsubscribe'
      have hgrown := congrArg List.length hnames'
      rw [List.length_append, List.length_singleton] at hgrown
      omega
    · rw [subscribe_of_full hfull'] at hagain
      exact absurd (congrArg Prod.fst hagain) (by decide : (-1 : Int) ≠ 0)
  · rintro ⟨hroom', hshort⟩
    apply subscribe_of_mem
    · omega
    · rw [hnames, List.take_of_length_le hshort]
      exact List.mem_append_right _ (List.mem_singleton_self symbol)

/-- Subscribing to a symbol is idempotent exactly when it leaves a free entry. -/
theorem subscribeIdempotent_iff (monitor : MarketMonitor α) (symbol : CString) :
    monitor.SubscribeIdempotent symbol ↔ monitor.LeavesRoom symbol := by
  rcases lt_or_ge (monitor.symbols.length : Int) monitor.maxSymbols with hroom | hfull
  · by_cases hmem : symbol ∈ monitor.names
    · apply iff_of_true (subscribeIdempotent_of_mem hroom hmem)
      exact ⟨fun _ => hroom, fun hnot => absurd hmem hnot⟩
    · rw [subscribeIdempotent_of_not_mem hroom hmem]
      exact ⟨fun hboth => ⟨fun hmem' => absurd hmem' hmem, fun _ _ => hboth⟩,
        fun hleaves => hleaves.2 hmem hroom⟩
  · rw [subscribeIdempotent_of_full hfull]
    constructor
    · exact fun hnot => ⟨fun hmem => absurd hmem hnot,
        fun _ hroom => absurd hroom (not_lt.mpr hfull)⟩
    · exact fun hleaves hmem => absurd (hleaves.1 hmem) (not_lt.mpr hfull)

end MarketMonitor

end QuantTrading
