import QuantTrading.Engine.Completeness
import QuantTrading.Engine.SymbolProjection

/-! # Symbols that block each other

The matching loop stops when the two tops are of different symbols, whatever is
behind them. Two such orders come to the top together when the quantities in front
of them trade away at the same time, which the quantities of the two sides decide
before the loop begins. A symbol trades on the mixed book as it does alone exactly
when no such pair stands in front of orders of the symbol that cross.
-/

namespace QuantTrading

open ServiceQueue

namespace Engine

variable {α ι : Type*}

/-- Every order of the book can trade. -/
def AllLive (state : Engine α ι) : Prop :=
  ∀ order ∈ state.storedOrders, (state.orders order).Live

theorem mem_ladder_bids {state : Engine α ι} {order : ι} :
    order ∈ state.ladder.bids ↔ order ∈ state.book.buyOrders.orders :=
  List.mem_reverse

/-- Both sides of the book list live orders only. -/
theorem AllLive.ladder {state : Engine α ι} (hlive : state.AllLive) :
    (∀ order ∈ state.ladder.bids, (state.orders order).Live) ∧
      ∀ order ∈ state.ladder.asks, (state.orders order).Live :=
  ⟨fun order horder => hlive order (mem_storedOrders.mpr (Or.inl (mem_ladder_bids.mp horder))),
    fun order horder => hlive order (mem_storedOrders.mpr (Or.inr horder))⟩

variable [LinearOrder α]

/-- Some of the bids and some of the offers are orders of the symbol that cross. -/
def Crosses (orders : ι → Order α) (symbol : CString) (bids asks : List ι) : Prop :=
  ∃ buy ∈ bids, ∃ sell ∈ asks, (orders buy).symbol = symbol ∧ (orders sell).symbol = symbol ∧
    (orders sell).price ≤ (orders buy).price

instance (orders : ι → Order α) (symbol : CString) (bids asks : List ι) :
    Decidable (Crosses orders symbol bids asks) :=
  inferInstanceAs (Decidable (∃ _ ∈ _, ∃ _ ∈ _, _ ∧ _ ∧ _))

/-- A bid and an offer of different symbols come to the top together, and from them
on there are orders of the symbol that cross. -/
def Blocked (state : Engine α ι) (symbol : CString) : Prop :=
  ∃ frontBids buy restBids frontAsks sell restAsks,
    state.ladder.bids = frontBids ++ buy :: restBids ∧
    state.ladder.asks = frontAsks ++ sell :: restAsks ∧
    Meet (remaining state.orders) frontBids buy frontAsks sell ∧
    (state.orders buy).symbol ≠ (state.orders sell).symbol ∧
    Crosses state.orders symbol (buy :: restBids) (sell :: restAsks)

theorem Crosses.mono {orders : ι → Order α} {symbol : CString} {bids bids' asks asks' : List ι}
    (hcrosses : Crosses orders symbol bids asks) (hbids : ∀ order ∈ bids, order ∈ bids')
    (hasks : ∀ order ∈ asks, order ∈ asks') : Crosses orders symbol bids' asks' := by
  obtain ⟨buy, hbuy, sell, hsell, hcross⟩ := hcrosses
  exact ⟨buy, hbids buy hbuy, sell, hasks sell hsell, hcross⟩

theorem Crosses.congr_terms {orders orders' : ι → Order α} (hterms : SameTerms orders orders')
    {symbol : CString} {bids asks : List ι} :
    Crosses orders' symbol bids asks ↔ Crosses orders symbol bids asks := by
  simp only [Crosses, hterms.symbol, hterms.price]

/-- What a call leaves in a book of live orders is live. -/
theorem Serving.allLive {start state : Engine α ι} {amount : Int}
    (hserving : Serving start state amount) (hlive : start.AllLive) : state.AllLive := by
  obtain ⟨servedBids, hbids, hservedBids⟩ := hserving.bids
  obtain ⟨servedAsks, hasks, hservedAsks⟩ := hserving.asks
  intro order horder
  have hstart := hlive order (hserving.stored horder)
  have hleft : 0 < remaining state.orders order := by
    rcases mem_storedOrders.mp horder with hbuy | hsell
    · exact hservedBids.left_pos_of_waiting remaining_pos_of_isLive (mem_ladder_bids.mpr hbuy)
        hstart
    · exact hservedAsks.left_pos_of_waiting remaining_pos_of_isLive hsell hstart
  exact ⟨(hserving.isCanceled order).trans hstart.1, hleft⟩

/-- When some bid and some offer of two parts of the book cross, the first ones do. -/
theorem Ordered.crossing_heads {state : Engine α ι} (hordered : state.Ordered)
    {bids asks : List ι} (hbids : bids.Sublist state.ladder.bids)
    (hasks : asks.Sublist state.ladder.asks) {buy sell : ι} (hbuy : buy ∈ bids)
    (hsell : sell ∈ asks) (hprice : (state.orders sell).price ≤ (state.orders buy).price) :
    ∃ topBuy topSell, bids.head? = some topBuy ∧ asks.head? = some topSell ∧
      (state.orders topSell).price ≤ (state.orders topBuy).price := by
  obtain ⟨topBuy, restBids, rfl⟩ := List.exists_cons_of_ne_nil (List.ne_nil_of_mem hbuy)
  obtain ⟨topSell, restAsks, rfl⟩ := List.exists_cons_of_ne_nil (List.ne_nil_of_mem hsell)
  refine ⟨topBuy, topSell, rfl, rfl, ?_⟩
  calc (state.orders topSell).price
      ≤ (state.orders sell).price := hordered.price_ge_of_head_asks hasks rfl sell hsell
    _ ≤ (state.orders buy).price := hprice
    _ ≤ (state.orders topBuy).price := hordered.price_le_of_head_bids hbids rfl buy hbuy

/-- The orders of one symbol of a live book match at their top exactly when two of
them cross. -/
theorem Ordered.projected_matchingPair {state : Engine α ι} (hordered : state.Ordered)
    (hlive : state.AllLive) {symbol : CString} {own : Ladder α ι}
    (hprojects : Ladder.Projects symbol state.ladder own) :
    own.matchingPair = none ↔
      ¬ Crosses state.orders symbol state.ladder.bids state.ladder.asks := by
  have hbids : own.bids = state.ladder.bids.filter fun order =>
    (state.orders order).symbol = symbol := hprojects.bids
  have hasks : own.asks = state.ladder.asks.filter fun order =>
    (state.orders order).symbol = symbol := hprojects.asks
  have hown : ∀ order, (state.orders order).symbol = symbol →
    own.orders order = state.orders order := hprojects.orders
  have hmemBids : ∀ order, order ∈ own.bids ↔ order ∈ state.ladder.bids ∧
      (state.orders order).symbol = symbol := by simp [hbids]
  have hmemAsks : ∀ order, order ∈ own.asks ↔ order ∈ state.ladder.asks ∧
      (state.orders order).symbol = symbol := by simp [hasks]
  rw [← not_iff_not, not_not, ← Ne, Option.ne_none_iff_exists']
  constructor
  · rintro ⟨⟨buy, sell⟩, hpair⟩
    obtain ⟨hbuy, hsell, hmatch⟩ := Ladder.matchingPair_eq_some_iff.mp hpair
    obtain ⟨hbuyMem, hbuySymbol⟩ := (hmemBids buy).mp (List.mem_of_mem_head? hbuy)
    obtain ⟨hsellMem, hsellSymbol⟩ := (hmemAsks sell).mp (List.mem_of_mem_head? hsell)
    rw [hown buy hbuySymbol, hown sell hsellSymbol] at hmatch
    exact ⟨buy, hbuyMem, sell, hsellMem, hbuySymbol, hsellSymbol,
      not_lt.mp (isMatchPossible_iff.mp hmatch).2.2.2⟩
  · rintro ⟨buy, hbuy, sell, hsell, hbuySymbol, hsellSymbol, hprice⟩
    -- the tops of the symbol's own part are at least as good as the crossing pair
    have hbuyOwn : buy ∈ own.bids := (hmemBids buy).mpr ⟨hbuy, hbuySymbol⟩
    have hsellOwn : sell ∈ own.asks := (hmemAsks sell).mpr ⟨hsell, hsellSymbol⟩
    have hbidsPart : own.bids.Sublist state.ladder.bids := hbids ▸ List.filter_sublist
    have hasksPart : own.asks.Sublist state.ladder.asks := hasks ▸ List.filter_sublist
    obtain ⟨topBuy, topSell, htopBuy, htopSell, htops⟩ :=
      hordered.crossing_heads hbidsPart hasksPart hbuyOwn hsellOwn hprice
    obtain ⟨htopBuyMem, htopBuySymbol⟩ := (hmemBids topBuy).mp (List.mem_of_mem_head? htopBuy)
    obtain ⟨htopSellMem, htopSellSymbol⟩ := (hmemAsks topSell).mp (List.mem_of_mem_head? htopSell)
    refine ⟨(topBuy, topSell), Ladder.matchingPair_eq_some_iff.mpr
      ⟨htopBuy, htopSell, ?_⟩⟩
    rw [hown topBuy htopBuySymbol, hown topSell htopSellSymbol]
    exact isMatchPossible_iff.mpr ⟨hlive.ladder.1 topBuy htopBuyMem,
      hlive.ladder.2 topSell htopSellMem, htopBuySymbol.trans htopSellSymbol.symm, htops.not_gt⟩

/-- When the loop stops in front of crossing orders of a symbol, the two tops are of
different symbols, and they came to the top together. -/
theorem Serving.blocked {start state : Engine α ι} {amount : Int}
    (hserving : Serving start state amount) (hlive : start.AllLive)
    (hstuck : state.matchingPair = none) {symbol : CString}
    (hcrosses : Crosses state.orders symbol state.ladder.bids state.ladder.asks) :
    start.Blocked symbol := by
  have hstateLive := (hserving.allLive hlive).ladder
  obtain ⟨servedBids, hbids, hservedBids⟩ := hserving.bids
  obtain ⟨servedAsks, hasks, hservedAsks⟩ := hserving.asks
  obtain ⟨buy, hbuy, sell, hsell, _, _, hprice⟩ := id hcrosses
  obtain ⟨topBuy, topSell, htopBuy, htopSell, htops⟩ := hserving.ordered.crossing_heads
    (List.Sublist.refl _) (List.Sublist.refl _) hbuy hsell hprice
  have hbuyLive := hstateLive.1 topBuy (List.mem_of_mem_head? htopBuy)
  have hsellLive := hstateLive.2 topSell (List.mem_of_mem_head? htopSell)
  -- they cross and are live, so only their symbols can keep them from trading
  have hsymbols : (state.orders topBuy).symbol ≠ (state.orders topSell).symbol := fun hsame =>
    (price_lt_of_stuck hstuck htopBuy htopSell hbuyLive hsellLive hsame).not_ge htops
  obtain ⟨restBids, hbidsCons⟩ := List.head?_eq_some_iff.mp htopBuy
  obtain ⟨restAsks, hasksCons⟩ := List.head?_eq_some_iff.mp htopSell
  rw [hserving.sameTerms.symbol, hserving.sameTerms.symbol] at hsymbols
  rw [hbidsCons] at hbids hservedBids
  rw [hasksCons] at hasks hservedAsks
  rw [Crosses.congr_terms hserving.sameTerms, hbidsCons, hasksCons] at hcrosses
  exact ⟨servedBids, topBuy, restBids, servedAsks, topSell, restAsks, hbids, hasks,
    hservedBids.meet_of_heads hservedAsks hbuyLive.2 hsellLive.2, hsymbols, hcrosses⟩

/-- A match does not serve past a bid and an offer of different symbols that come to
the top together. -/
theorem Serving.traded_le {start state state' : Engine α ι} {amount : Int} {topBuy topSell : ι}
    (hserving : Serving start state amount) (hlive : start.AllLive)
    (htraded : Traded state state' topBuy topSell)
    {frontBids restBids frontAsks restAsks : List ι} {buy sell : ι}
    (hbids : start.ladder.bids = frontBids ++ buy :: restBids)
    (hasks : start.ladder.asks = frontAsks ++ sell :: restAsks)
    (hmeet : Meet (remaining start.orders) frontBids buy frontAsks sell)
    (hsymbols : (start.orders buy).symbol ≠ (start.orders sell).symbol)
    (hle : amount ≤ max (volume (remaining start.orders) frontBids)
      (volume (remaining start.orders) frontAsks)) :
    amount + state.matchQuantity topBuy topSell ≤
      max (volume (remaining start.orders) frontBids)
        (volume (remaining start.orders) frontAsks) := by
  obtain ⟨hbidsLive, hasksLive⟩ := hlive.ladder
  obtain ⟨_, hbuyLe, hsellLe⟩ := htraded.quantity_pos
  obtain ⟨servedBids, hbidsSplit, hservedBids⟩ := hserving.bids
  obtain ⟨servedAsks, hasksSplit, hservedAsks⟩ := hserving.asks
  obtain ⟨waitingBids, hwaitingBids⟩ := htraded.bids_cons
  obtain ⟨waitingAsks, hwaitingAsks⟩ := htraded.asks_cons
  rw [hwaitingBids] at hservedBids hbidsSplit
  rw [hwaitingAsks] at hservedAsks hasksSplit
  rw [hbids] at hbidsSplit hbidsLive
  rw [hasks] at hasksSplit hasksLive
  have hfrontBids : ∀ order ∈ frontBids, IsLive start.orders order := fun order horder =>
    hbidsLive order (List.mem_append_left _ horder)
  have hfrontAsks : ∀ order ∈ frontAsks, IsLive start.orders order := fun order horder =>
    hasksLive order (List.mem_append_left _ horder)
  have hbuyLive : IsLive start.orders buy := hbidsLive buy (by simp)
  have hsellLive : IsLive start.orders sell := hasksLive sell (by simp)
  rcases lt_or_ge amount (volume (remaining start.orders) frontBids) with hltBids | hgeBids
  · exact le_max_of_le_left (hservedBids.add_le_volume_of_lt remaining_pos_of_isLive
      hbidsSplit.symm hfrontBids hbuyLive hltBids hbuyLe)
  rcases lt_or_ge amount (volume (remaining start.orders) frontAsks) with hltAsks | hgeAsks
  · exact le_max_of_le_right (hservedAsks.add_le_volume_of_lt remaining_pos_of_isLive
      hasksSplit.symm hfrontAsks hsellLive hltAsks hsellLe)
  -- both are at the top now, and do not match
  obtain ⟨hmeetSell, hmeetBuy⟩ := hmeet
  have hbuyPos := remaining_pos_of_isLive buy hbuyLive
  have hsellPos := remaining_pos_of_isLive sell hsellLive
  have htopBuy : topBuy = buy := hservedBids.head_eq_of_volume_le remaining_pos_of_isLive
    hbidsSplit.symm hfrontBids hgeBids (by omega) htraded.buyLive.2
  have htopSell : topSell = sell := hservedAsks.head_eq_of_volume_le remaining_pos_of_isLive
    hasksSplit.symm hfrontAsks hgeAsks (by omega) htraded.sellLive.2
  have hsame := htraded.symbol
  rw [htopBuy, htopSell, hserving.sameTerms.symbol, hserving.sameTerms.symbol] at hsame
  exact absurd hsame hsymbols

variable [DecidableEq ι]

/-- The crossing orders behind a blocking pair are still there when the loop stops. -/
theorem Ordered.crosses_of_blocked {state : Engine α ι} (hordered : state.Ordered)
    (hlive : state.AllLive) {symbol : CString} (hblocked : state.Blocked symbol) :
    Crosses state.matchOrders.orders symbol state.matchOrders.ladder.bids
      state.matchOrders.ladder.asks := by
  obtain ⟨frontBids, buy, restBids, frontAsks, sell, restAsks, hbids, hasks, hmeet, hsymbols,
    hcrosses⟩ := hblocked
  have hbuyPos := remaining_pos_of_isLive buy (hlive.ladder.1 buy (by simp [hbids]))
  have hsellPos := remaining_pos_of_isLive sell (hlive.ladder.2 sell (by simp [hasks]))
  obtain ⟨amount, hserving, hle⟩ : ∃ amount, Serving state state.matchOrders amount ∧
      amount ≤ max (volume (remaining state.orders) frontBids)
        (volume (remaining state.orders) frontAsks) := by
    refine matchOrders_invariant (fun current => ∃ amount, Serving state current amount ∧
      amount ≤ max (volume (remaining state.orders) frontBids)
        (volume (remaining state.orders) frontAsks)) ?_ ⟨0, hordered.serving, ?_⟩
    · rintro current next ⟨amount, hserving, hle⟩ hnext
      obtain ⟨topBuy, topSell, htraded⟩ := hserving.ordered.aligned.traded hnext
      exact ⟨_, hserving.traded hordered htraded,
        hserving.traded_le hlive htraded hbids hasks hmeet hsymbols hle⟩
    · refine le_max_of_le_left (volume_nonneg fun order horder => ?_)
      exact (hlive.ladder.1 order (by simp [hbids, horder])).2.le
  obtain ⟨servedBids, hbidsSplit, hservedBids⟩ := hserving.bids
  obtain ⟨servedAsks, hasksSplit, hservedAsks⟩ := hserving.asks
  rw [hbids] at hbidsSplit
  rw [hasks] at hasksSplit
  obtain ⟨hmeetSell, hmeetBuy⟩ := hmeet
  obtain ⟨middleBids, _, hwaitingBids⟩ := hservedBids.waiting_of_lt remaining_pos_of_isLive
    hbidsSplit.symm (by omega)
  obtain ⟨middleAsks, _, hwaitingAsks⟩ := hservedAsks.waiting_of_lt remaining_pos_of_isLive
    hasksSplit.symm (by omega)
  rw [Crosses.congr_terms hserving.sameTerms, hwaitingBids, hwaitingAsks]
  exact hcrosses.mono (fun order horder => List.mem_append_right _ horder)
    fun order horder => List.mem_append_right _ horder

/-- Orders of a symbol that cross are left in a live book exactly when the symbol was
blocked. -/
theorem Ordered.crosses_matchOrders_iff {state : Engine α ι} (hordered : state.Ordered)
    (hlive : state.AllLive) (symbol : CString) :
    Crosses state.matchOrders.orders symbol state.matchOrders.ladder.bids
      state.matchOrders.ladder.asks ↔ state.Blocked symbol := by
  constructor
  · intro hcrosses
    obtain ⟨amount, hserving⟩ := hordered.serving_matchOrders
    exact hserving.blocked hlive hordered.aligned.matchOrders_stuck hcrosses
  · exact hordered.crosses_of_blocked hlive

/-- A mixed book of live orders makes the trades that the orders of a symbol make on
their own exactly when the symbol is not blocked. -/
theorem Filled.symbol_trades_eq_iff {orders : ι → Order α} {list : List ι} {symbol : CString}
    {mixed own : Engine α ι} (hmixed : Filled orders list mixed)
    (hown : Filled orders (list.filter fun order => (orders order).symbol = symbol) own)
    (hlive : ∀ order ∈ list, (orders order).Live) :
    (mixed.matchOrders.trades.filter fun event => event.symbol = symbol) =
      own.matchOrders.trades ↔ ¬ mixed.Blocked symbol := by
  have hmixedLive : mixed.AllLive := by
    intro order horder
    rw [hmixed.memory]
    rcases mem_storedOrders.mp horder with hbuy | hsell
    · exact hlive order ((hmixed.stored true order).mp hbuy).1
    · exact hlive order ((hmixed.stored false order).mp hsell).1
  have hownStuck : own.ladder.matchOrders.matchOnce = none := by
    rw [Ladder.matchOnce_eq_none_iff, ← hown.ordered.ladder_matchOrders, ladder_matchingPair]
    exact hown.ordered.aligned.matchOrders_stuck
  obtain ⟨rest, hrest, hiff⟩ := (hmixed.projects hown).trades_eq_iff hownStuck
  rw [← hmixed.ordered.ladder_matchOrders] at hrest hiff
  rw [← hown.ordered.ladder_matchOrders] at hiff
  obtain ⟨amount, hserving⟩ := hmixed.ordered.serving_matchOrders
  calc (mixed.matchOrders.trades.filter fun event => event.symbol = symbol) =
        own.matchOrders.trades
      ↔ rest.matchingPair = none := hiff
    _ ↔ ¬ Crosses mixed.matchOrders.orders symbol mixed.matchOrders.ladder.bids
          mixed.matchOrders.ladder.asks :=
        hserving.ordered.projected_matchingPair (hserving.allLive hmixedLive) hrest
    _ ↔ ¬ mixed.Blocked symbol :=
        not_congr (hmixed.ordered.crosses_matchOrders_iff hmixedLive symbol)

end Engine

end QuantTrading
