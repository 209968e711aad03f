import QuantTrading.Engine.Confluence

/-! # One symbol of a mixed book

A book that holds orders of several symbols projects to the book that holds the
orders of one of them. A match on the mixed book is a match of that symbol, and
then the projected book can make it too, or it does not concern the symbol. So
the trades of one symbol on the mixed book are a beginning of those the symbol
makes on its own.
-/

namespace QuantTrading

open KeyedList

variable {α ι : Type*}

namespace Ladder

/-- The ladder `own` holds what `mixed` holds of one symbol. -/
structure Projects (symbol : CString) (mixed own : Ladder α ι) : Prop where
  orders : ∀ order, (mixed.orders order).symbol = symbol → own.orders order = mixed.orders order
  bids : own.bids = mixed.bids.filter fun order => (mixed.orders order).symbol = symbol
  asks : own.asks = mixed.asks.filter fun order => (mixed.orders order).symbol = symbol
  trades : own.trades = mixed.trades.filter fun event => event.symbol = symbol

section Filter

variable {orders orders' : ι → Order α} {keep : ι → Bool} {head : ι} {rest : List ι}

/-- Filtering commutes with dropping a filled head that the filter keeps. -/
theorem dropFilled_filter_of_kept (hkept : keep head = true) (heq : orders' head = orders head) :
    dropFilled orders' ((head :: rest).filter keep) =
      (dropFilled orders (head :: rest)).filter keep := by
  rw [List.filter_cons_of_pos hkept, dropFilled, dropFilled, heq]
  split_ifs
  · rfl
  · rw [List.filter_cons_of_pos hkept]

theorem filter_dropFilled_of_not_kept (hkept : ¬ keep head = true) :
    (dropFilled orders (head :: rest)).filter keep = (head :: rest).filter keep := by
  rw [dropFilled]
  split_ifs
  · rw [List.filter_cons_of_neg hkept]
  · rfl

end Filter

variable [DecidableEq ι]

@[simp] theorem fill_symbol (orders : ι → Order α) (buy sell order : ι) :
    (fill orders buy sell order).symbol = (orders order).symbol := by
  unfold fill
  split_ifs <;> rfl

theorem fill_congr {orders orders' : ι → Order α} {buy sell order : ι}
    (hbuy : orders' buy = orders buy) (hsell : orders' sell = orders sell)
    (horder : orders' order = orders order) :
    fill orders' buy sell order = fill orders buy sell order := by
  unfold fill
  rw [hbuy, hsell, horder]

variable [LinearOrder α]

omit [DecidableEq ι] in
theorem matchingPair_eq_some_iff {ladder : Ladder α ι} {buy sell : ι} :
    ladder.matchingPair = some (buy, sell) ↔
      ladder.bids.head? = some buy ∧ ladder.asks.head? = some sell ∧
        isMatchPossible (ladder.orders buy) (ladder.orders sell) = true := by
  unfold matchingPair
  cases hbids : ladder.bids.head? with
  | none => simp
  | some topBuy =>
      cases hasks : ladder.asks.head? with
      | none => simp
      | some topSell =>
          simp only [Option.ite_none_right_eq_some, Option.some.injEq, Prod.mk.injEq]
          constructor
          · rintro ⟨hmatch, rfl, rfl⟩
            exact ⟨rfl, rfl, hmatch⟩
          · rintro ⟨rfl, rfl, hmatch⟩
            exact ⟨hmatch, rfl, rfl⟩

theorem matchOnce_eq_some_iff {ladder ladder' : Ladder α ι} :
    ladder.matchOnce = some ladder' ↔
      ∃ buy sell, ladder.matchingPair = some (buy, sell) ∧ ladder.trade buy sell = ladder' := by
  simp [matchOnce]

theorem matchOnce_eq_none_iff {ladder : Ladder α ι} :
    ladder.matchOnce = none ↔ ladder.matchingPair = none := by
  simp [matchOnce]

variable {symbol : CString} {mixed own : Ladder α ι} {buy sell : ι}

/-- A match of the symbol can be made on its own. -/
theorem Projects.trade_own (hprojects : Projects symbol mixed own)
    (hpair : mixed.matchingPair = some (buy, sell)) (hsymbol : (mixed.orders buy).symbol = symbol) :
    own.matchingPair = some (buy, sell) ∧
      Projects symbol (mixed.trade buy sell) (own.trade buy sell) := by
  obtain ⟨hbids, hasks, hmatch⟩ := matchingPair_eq_some_iff.mp hpair
  obtain ⟨_, _, hsame, _⟩ := isMatchPossible_iff.mp hmatch
  obtain ⟨restBids, hrestBids⟩ := List.head?_eq_some_iff.mp hbids
  obtain ⟨restAsks, hrestAsks⟩ := List.head?_eq_some_iff.mp hasks
  have hsellSymbol : (mixed.orders sell).symbol = symbol := hsame.symm.trans hsymbol
  have hbuyOwn := hprojects.orders buy hsymbol
  have hsellOwn := hprojects.orders sell hsellSymbol
  have hfill : ∀ order, (mixed.orders order).symbol = symbol →
      fill own.orders buy sell order = fill mixed.orders buy sell order := fun order horder =>
    fill_congr hbuyOwn hsellOwn (hprojects.orders order horder)
  constructor
  · refine matchingPair_eq_some_iff.mpr ⟨?_, ?_, ?_⟩
    · rw [hprojects.bids, hrestBids, List.filter_cons_of_pos (by simpa using hsymbol),
        List.head?_cons]
    · rw [hprojects.asks, hrestAsks, List.filter_cons_of_pos (by simpa using hsellSymbol),
        List.head?_cons]
    · rw [hbuyOwn, hsellOwn]
      exact hmatch
  · refine ⟨?_, ?_, ?_, ?_⟩
    · intro order horder
      exact hfill order (by simpa [trade] using horder)
    · simp only [trade, fill_symbol]
      rw [hprojects.bids, hrestBids]
      exact dropFilled_filter_of_kept (by simpa using hsymbol) (hfill buy hsymbol)
    · simp only [trade, fill_symbol]
      rw [hprojects.asks, hrestAsks]
      exact dropFilled_filter_of_kept (by simpa using hsellSymbol) (hfill sell hsellSymbol)
    · simp only [trade]
      rw [List.filter_append, hprojects.trades, hbuyOwn, hsellOwn,
        List.filter_cons_of_pos (by simpa using hsymbol), List.filter_nil]

/-- A match of another symbol changes nothing for this one. -/
theorem Projects.trade_other (hprojects : Projects symbol mixed own)
    (hpair : mixed.matchingPair = some (buy, sell)) (hsymbol : (mixed.orders buy).symbol ≠ symbol) :
    Projects symbol (mixed.trade buy sell) own := by
  obtain ⟨hbids, hasks, hmatch⟩ := matchingPair_eq_some_iff.mp hpair
  obtain ⟨_, _, hsame, _⟩ := isMatchPossible_iff.mp hmatch
  obtain ⟨restBids, hrestBids⟩ := List.head?_eq_some_iff.mp hbids
  obtain ⟨restAsks, hrestAsks⟩ := List.head?_eq_some_iff.mp hasks
  have hsellSymbol : (mixed.orders sell).symbol ≠ symbol := hsame ▸ hsymbol
  refine ⟨?_, ?_, ?_, ?_⟩
  · intro order horder
    simp only [trade, fill_symbol] at horder ⊢
    rw [fill_of_ne (by rintro rfl; exact hsymbol horder) (by rintro rfl; exact hsellSymbol horder)]
    exact hprojects.orders order horder
  · simp only [trade, fill_symbol]
    rw [hprojects.bids, hrestBids, filter_dropFilled_of_not_kept (by simpa using hsymbol)]
  · simp only [trade, fill_symbol]
    rw [hprojects.asks, hrestAsks, filter_dropFilled_of_not_kept (by simpa using hsellSymbol)]
  · simp only [trade]
    rw [List.filter_append, hprojects.trades, List.filter_cons_of_neg (by simpa using hsymbol),
      List.filter_nil, List.append_nil]

/-- The projected book makes a match of the mixed book, or waits. -/
theorem Projects.matchOnce {mixed' : Ladder α ι} (hprojects : Projects symbol mixed own)
    (hnext : mixed.matchOnce = some mixed') :
    Projects symbol mixed' own ∨
      ∃ own', own.matchOnce = some own' ∧ Projects symbol mixed' own' := by
  obtain ⟨buy, sell, hpair, rfl⟩ := matchOnce_eq_some_iff.mp hnext
  by_cases hsymbol : (mixed.orders buy).symbol = symbol
  · obtain ⟨hown, htrade⟩ := hprojects.trade_own hpair hsymbol
    exact Or.inr ⟨_, matchOnce_eq_some_iff.mpr ⟨buy, sell, hown, rfl⟩, htrade⟩
  · exact Or.inl (hprojects.trade_other hpair hsymbol)

/-- What is left of the symbol after matching the mixed book decides whether the
symbol has made all the trades it makes on its own. -/
theorem Projects.trades_eq_iff (hprojects : Projects symbol mixed own)
    (hstuck : own.matchOrders.matchOnce = none) :
    ∃ rest, Projects symbol mixed.matchOrders rest ∧
      (mixed.matchOrders.trades.filter (fun event => event.symbol = symbol) =
        own.matchOrders.trades ↔ rest.matchingPair = none) := by
  obtain ⟨rest, hreaches, hrest⟩ := Transition.loop_simulates (Projects symbol)
    (fun _ _ _ h hnext => h.matchOnce hnext) (mixed.bids.length + mixed.asks.length) hprojects
  refine ⟨rest, hrest, ?_⟩
  have houtput : ∀ ladder ladder' : Ladder α ι, ladder.matchOnce = some ladder' →
      ∃ event, ladder'.trades = ladder.trades ++ [event] := by
    intro ladder ladder' hnext
    obtain ⟨buy, sell, _, rfl⟩ := matchOnce_eq_some_iff.mp hnext
    exact ⟨_, rfl⟩
  rw [← matchOnce_eq_none_iff]
  exact (hrest.trades ▸ hreaches.output_eq_iff houtput hstuck :)

end Ladder

namespace Engine

variable [LinearOrder α] {orders : ι → Order α} {list : List ι} {symbol : CString}
  {mixed own : Engine α ι}

/-- The orders a book holds have distinct keys within each side. -/
theorem Filled.distinctKeys (hfilled : Filled orders list mixed) : DistinctKeys orders list := by
  intro first hfirst second hsecond hne hside hkey
  have hasc := (hfilled.ordered.side_sorted (orders first).isBuyOrder).ascending_orders
    (hfilled.ordered.aligned.side (orders first).isBuyOrder)
  rw [hfilled.memory] at hasc
  exact hne (hasc.eq_of_key_eq ((hfilled.stored _ first).mpr ⟨hfirst, rfl⟩)
    ((hfilled.stored _ second).mpr ⟨hsecond, hside.symm⟩) hkey)

/-- Each side of a book of one symbol is that symbol's part of the mixed book. -/
theorem Filled.side_orders_filter (hmixed : Filled orders list mixed)
    (hown : Filled orders (list.filter fun order => (orders order).symbol = symbol) own)
    (isBuyOrder : Bool) :
    (own.book.side isBuyOrder).orders =
      (mixed.book.side isBuyOrder).orders.filter fun order => (orders order).symbol = symbol := by
  have hascOwn := (hown.ordered.side_sorted isBuyOrder).ascending_orders
    (hown.ordered.aligned.side isBuyOrder)
  have hascMixed := (hmixed.ordered.side_sorted isBuyOrder).ascending_orders
    (hmixed.ordered.aligned.side isBuyOrder)
  rw [hown.memory] at hascOwn
  rw [hmixed.memory] at hascMixed
  apply hascOwn.eq_of_mem_iff (hascMixed.filter _)
  intro order
  rw [hown.stored, List.mem_filter, List.mem_filter, hmixed.stored]
  tauto

theorem Filled.projects (hmixed : Filled orders list mixed)
    (hown : Filled orders (list.filter fun order => (orders order).symbol = symbol) own) :
    Ladder.Projects symbol mixed.ladder own.ladder := by
  have hbuy : own.book.buyOrders.orders = mixed.book.buyOrders.orders.filter _ :=
    hmixed.side_orders_filter hown true
  have hsell : own.book.sellOrders.orders = mixed.book.sellOrders.orders.filter _ :=
    hmixed.side_orders_filter hown false
  refine ⟨?_, ?_, ?_, ?_⟩
  · intro order _
    simp only [ladder, hown.memory, hmixed.memory]
  · simp only [ladder, hmixed.memory, hbuy, List.filter_reverse]
  · simp only [ladder, hmixed.memory, hsell]
  · simp only [ladder, hown.untraded, hmixed.untraded, List.filter_nil]

end Engine

end QuantTrading
