import QuantTrading.Client.TradeHistory
import QuantTrading.Engine.Depth
import Mathlib.Algebra.Order.BigOperators.Group.List
import Mathlib.Algebra.Order.Field.Basic
import Mathlib.Algebra.Order.Ring.Rat
import Mathlib.Data.Finset.Max

/-! # Volume and average price of a history

`trade_history_get_volume` and `trade_history_get_vwap` walk the stored trades and count
those whose symbol `strcmp` finds equal to the one asked for. Prices are rationals here.
The quantities are added up in an `int`, and no capacity or check on receipt bounds the sum.
-/

namespace QuantTrading

namespace TradeHistory

section Queries

variable {α : Type} (symbol : CString)

/-- The loop of `trade_history_get_volume` from a record on; the total is `none` once it has
overflowed. -/
def addVolume : List (TradeBuffer α) → Option Int → Except Fault (Option Int)
  | [], totalVolume => .ok totalVolume
  | current :: next, totalVolume => do
      let same ← strcmpEqual current.symbol.chars symbol
      if same then
        addVolume next (totalVolume.bind fun total => addInt total current.quantity)
      else
        addVolume next totalVolume

/-- `trade_history_get_volume`, `none` when the total overflows. -/
def getVolume (history : TradeHistory α) : Except Fault (Option Int) :=
  addVolume symbol history.trades (some 0)

/-- The loop of `trade_history_get_vwap` from a record on. -/
def addVolumePrice : List (TradeBuffer ℚ) → ℚ → Option Int → Except Fault (ℚ × Option Int)
  | [], volumePrice, totalVolume => .ok (volumePrice, totalVolume)
  | current :: next, volumePrice, totalVolume => do
      let same ← strcmpEqual current.symbol.chars symbol
      if same then
        addVolumePrice next (volumePrice + current.price * current.quantity)
          (totalVolume.bind fun total => addInt total current.quantity)
      else
        addVolumePrice next volumePrice totalVolume

/-- `trade_history_get_vwap`, `none` when the total volume overflows. -/
def getVwap (history : TradeHistory ℚ) : Except Fault (Option ℚ) := do
  let (volumePrice, totalVolume) ← addVolumePrice symbol history.trades 0 (some 0)
  .ok (totalVolume.map fun total : Int => if 0 < total then volumePrice / (total : ℚ) else 0)

/-- The trade is one of the symbol. -/
def IsOf (trade : TradeBuffer α) : Prop :=
  trade.symbol.text = .ok symbol

instance (trade : TradeBuffer α) : Decidable (IsOf symbol trade) :=
  inferInstanceAs (Decidable (_ = _))

/-- The trades of a symbol among some records. -/
def tradesOf (trades : List (TradeBuffer α)) : List (TradeBuffer α) :=
  trades.filter fun trade => IsOf symbol trade

/-- Comparing the symbol field with the symbol stays inside the field: the field has an end, or
the symbol is not a continuation of it. -/
def Readable (trade : TradeBuffer α) : Prop :=
  nul ∈ trade.symbol.chars ∨ ¬ trade.symbol.chars <+: symbol

instance (trade : TradeBuffer α) : Decidable (Readable symbol trade) :=
  inferInstanceAs (Decidable (_ ∨ _))

end Queries

section Loops

variable {α : Type} {symbol : CString} {trade : TradeBuffer α} {trades : List (TradeBuffer α)}

theorem strcmpEqual_of_readable (hreadable : Readable symbol trade) :
    strcmpEqual trade.symbol.chars symbol = .ok (decide (IsOf symbol trade)) := by
  rw [strcmpEqual_eq, if_neg]
  · rfl
  · rintro ⟨hopen, hstart⟩
    exact hreadable.elim hopen fun hnot => hnot hstart

theorem strcmpEqual_of_not_readable (hnot : ¬ Readable symbol trade) :
    strcmpEqual trade.symbol.chars symbol = .error .outOfBounds := by
  rw [strcmpEqual_eq, if_pos]
  rwa [Readable, not_or, not_not] at hnot

theorem tradesOf_cons_of_isOf (hof : IsOf symbol trade) :
    tradesOf symbol (trade :: trades) = trade :: tradesOf symbol trades :=
  List.filter_cons_of_pos (decide_eq_true hof)

theorem tradesOf_cons_of_not_isOf (hother : ¬ IsOf symbol trade) :
    tradesOf symbol (trade :: trades) = tradesOf symbol trades :=
  List.filter_cons_of_neg (by simpa using hother)

/-- The loop adds up the quantities of the trades of the symbol. -/
theorem addVolume_eq (hreadable : ∀ trade ∈ trades, Readable symbol trade) (start : Int) :
    addVolume symbol trades (some start) =
      .ok (sumInt start ((tradesOf symbol trades).map TradeBuffer.quantity)) := by
  rw [sumInt]
  generalize some start = totalVolume
  induction trades generalizing totalVolume with
  | nil => rfl
  | cons current next ih =>
      have hnext := ih fun trade htrade => hreadable trade (List.mem_cons_of_mem _ htrade)
      rw [addVolume, strcmpEqual_of_readable (hreadable current List.mem_cons_self)]
      by_cases hof : IsOf symbol current
      · rw [tradesOf_cons_of_isOf hof, List.map_cons, List.foldl_cons, ← hnext, decide_eq_true hof]
        rfl
      · rw [tradesOf_cons_of_not_isOf hof, ← hnext, decide_eq_false hof]
        rfl

/-- A field that cannot be compared stops the loop, whatever was counted. -/
theorem addVolume_of_not_readable {unended : TradeBuffer α} (hmem : unended ∈ trades)
    (hnot : ¬ Readable symbol unended) (totalVolume : Option Int) :
    addVolume symbol trades totalVolume = .error .outOfBounds := by
  induction trades generalizing totalVolume with
  | nil => cases hmem
  | cons current next ih =>
      rw [addVolume]
      by_cases hcurrent : Readable symbol current
      · have hnext : unended ∈ next := by
          rcases List.mem_cons.mp hmem with rfl | hnext
          · exact absurd hcurrent hnot
          · exact hnext
        rw [strcmpEqual_of_readable hcurrent]
        change (if decide (IsOf symbol current) = true then _ else _) = _
        split_ifs
        · exact ih hnext _
        · exact ih hnext _
      · rw [strcmpEqual_of_not_readable hcurrent]
        rfl

end Loops

section Average

variable {symbol : CString} {trades : List (TradeBuffer ℚ)}

/-- What the trades of a symbol cost together. -/
def turnover (symbol : CString) (trades : List (TradeBuffer ℚ)) : ℚ :=
  ((tradesOf symbol trades).map fun trade => trade.price * (trade.quantity : ℚ)).sum

/-- The second loop counts the same trades as the first. -/
theorem addVolumePrice_eq (hreadable : ∀ trade ∈ trades, Readable symbol trade)
    (volumePrice : ℚ) (start : Int) :
    addVolumePrice symbol trades volumePrice (some start) =
      .ok (volumePrice + turnover symbol trades,
        sumInt start ((tradesOf symbol trades).map TradeBuffer.quantity)) := by
  rw [sumInt]
  generalize some start = totalVolume
  induction trades generalizing volumePrice totalVolume with
  | nil =>
      rw [turnover]
      simp [addVolumePrice, tradesOf]
  | cons current next ih =>
      have hnext := ih fun trade htrade => hreadable trade (List.mem_cons_of_mem _ htrade)
      rw [addVolumePrice, strcmpEqual_of_readable (hreadable current List.mem_cons_self)]
      by_cases hof : IsOf symbol current
      · rw [turnover, tradesOf_cons_of_isOf hof, List.map_cons, List.map_cons, List.sum_cons,
          List.foldl_cons, ← add_assoc, ← turnover, ← hnext, decide_eq_true hof]
        rfl
      · rw [turnover, tradesOf_cons_of_not_isOf hof, ← turnover, ← hnext, decide_eq_false hof]
        rfl

end Average

section Exact

variable (history : TradeHistory ℚ) (symbol : CString)

/-- The sum of the quantities of the trades of a symbol. -/
def volume (trades : List (TradeBuffer ℚ)) : Int :=
  ((tradesOf symbol trades).map TradeBuffer.quantity).sum

/-- A price between the lowest and the highest price of some trades. -/
structure BetweenPrices (trades : List (TradeBuffer ℚ)) (price : ℚ) : Prop where
  lowest : ∃ trade ∈ trades, (∀ other ∈ trades, trade.price ≤ other.price) ∧ trade.price ≤ price
  highest : ∃ trade ∈ trades, (∀ other ∈ trades, other.price ≤ trade.price) ∧ price ≤ trade.price

/-- The two queries return the volume and the volume-weighted average price of the stored trades
of a symbol. -/
structure StatisticsExact : Prop where
  volume_eq : history.getVolume symbol = .ok (some (volume symbol history.trades))
  vwap_eq : tradesOf symbol history.trades ≠ [] → 0 < volume symbol history.trades ∧
    history.getVwap symbol =
      .ok (some (turnover symbol history.trades / volume symbol history.trades)) ∧
    BetweenPrices (tradesOf symbol history.trades)
      (turnover symbol history.trades / volume symbol history.trades)

end Exact

/-- What trades cost at one price. -/
theorem sum_mul_quantity (price : ℚ) (trades : List (TradeBuffer ℚ)) :
    (trades.map fun trade => price * (trade.quantity : ℚ)).sum =
      price * ((trades.map TradeBuffer.quantity).sum : Int) := by
  induction trades with
  | nil => simp
  | cons trade rest ih =>
      rw [List.map_cons, List.map_cons, List.sum_cons, List.sum_cons, ih, Int.cast_add, mul_add]

/-- Trades cost no less at higher prices. -/
theorem sum_mul_quantity_le {trades : List (TradeBuffer ℚ)} {lower upper : TradeBuffer ℚ → ℚ}
    (hprices : ∀ trade ∈ trades, lower trade ≤ upper trade)
    (hquantity : ∀ trade ∈ trades, 0 ≤ trade.quantity) :
    (trades.map fun trade => lower trade * (trade.quantity : ℚ)).sum ≤
      (trades.map fun trade => upper trade * (trade.quantity : ℚ)).sum := by
  apply List.sum_le_sum
  intro trade htrade
  apply mul_le_mul_of_nonneg_right (hprices trade htrade)
  exact_mod_cast hquantity trade htrade

/-- The average price of some trades is one of theirs or lies between two. -/
theorem betweenPrices_average {trades : List (TradeBuffer ℚ)} (hsome : trades ≠ [])
    (hquantity : ∀ trade ∈ trades, 0 ≤ trade.quantity)
    (hvolume : 0 < (trades.map TradeBuffer.quantity).sum) :
    BetweenPrices trades ((trades.map fun trade => trade.price * (trade.quantity : ℚ)).sum /
      ((trades.map TradeBuffer.quantity).sum : Int)) := by
  classical
  have hnonempty : trades.toFinset.Nonempty := by
    obtain ⟨trade, htrade⟩ := List.exists_mem_of_ne_nil trades hsome
    exact ⟨trade, List.mem_toFinset.mpr htrade⟩
  have hpositive : (0 : ℚ) < ((trades.map TradeBuffer.quantity).sum : Int) := by
    exact_mod_cast hvolume
  obtain ⟨lowest, hlowest, hleast⟩ := trades.toFinset.exists_min_image TradeBuffer.price hnonempty
  obtain ⟨highest, hhighest, hmost⟩ := trades.toFinset.exists_max_image TradeBuffer.price hnonempty
  simp only [List.mem_toFinset] at hlowest hleast hhighest hmost
  constructor
  · refine ⟨lowest, hlowest, hleast, ?_⟩
    rw [le_div_iff₀ hpositive, ← sum_mul_quantity]
    exact sum_mul_quantity_le hleast hquantity
  · refine ⟨highest, hhighest, hmost, ?_⟩
    rw [div_le_iff₀ hpositive, ← sum_mul_quantity]
    exact sum_mul_quantity_le hmost hquantity

/-- A sum of positive quantities fits an `int` on the way when it does at the end. -/
theorem sumInt_of_pos {values : List Int} (hpos : ∀ value ∈ values, 1 ≤ value) :
    sumInt 0 values = some values.sum ↔ values.sum ≤ intMax := by
  have hsum := sumInt_eq_some_iff (by decide : IsInt 0) values
  simp only [zero_add] at hsum
  rw [hsum]
  have hnonneg : ∀ part : List Int, part ⊆ values → 0 ≤ part.sum := fun part hpart =>
    List.sum_nonneg fun value hvalue => le_trans zero_le_one (hpos value (hpart hvalue))
  constructor
  · intro hall
    simpa using (hall values.length).2
  · intro hfits count
    have htaken := hnonneg _ (List.take_subset count values)
    have hleft := hnonneg _ (List.drop_subset count values)
    have hsplit := List.sum_take_add_sum_drop values count
    have hmin : intMin ≤ 0 := by decide
    exact ⟨by omega, by omega⟩

/-- A stored trade was added. -/
theorem mem_of_addTrades {maxTrades : Int} {trades : List (TradeBuffer ℚ)}
    {history : TradeHistory ℚ} (hhistory : (create maxTrades).addTrades trades = .ok history) :
    ∀ trade ∈ history.trades, trade ∈ trades := by
  induction trades using List.reverseRecOn generalizing history with
  | nil =>
      cases hhistory
      exact fun trade htrade => htrade
  | append_singleton trades added ih =>
      rw [addTrades, List.foldlM_append, ← addTrades] at hhistory
      cases hbefore : (create maxTrades : TradeHistory ℚ).addTrades trades with
      | error fault =>
          rw [hbefore] at hhistory
          cases hhistory
      | ok before =>
          rw [hbefore] at hhistory
          change [added].foldlM TradeHistory.addTrade before = _ at hhistory
          rw [List.foldlM_cons] at hhistory
          have hstored : ∀ trade ∈ added :: before.trades, trade ∈ trades ++ [added] := by
            intro trade htrade
            rcases List.mem_cons.mp htrade with rfl | hbefore'
            · exact List.mem_append_right _ (List.mem_singleton_self _)
            · exact List.mem_append_left _ (ih hbefore trade hbefore')
          unfold TradeHistory.addTrade at hhistory
          split_ifs at hhistory with hfull
          · cases htrades : before.trades with
            | nil =>
                rw [htrades] at hhistory
                cases hhistory
            | cons dropped rest =>
                rw [htrades] at hhistory hstored
                cases hhistory
                intro trade htrade
                apply hstored
                rcases List.mem_cons.mp htrade with rfl | hrest
                · exact List.mem_cons_self
                · exact List.mem_cons_of_mem _ (List.mem_cons_of_mem _ hrest)
          · cases hhistory
            exact hstored

/-- The queries of a history of trades with positive quantities are exact for a symbol if and
only if its volume fits an `int` and every stored symbol field can be compared with it. -/
theorem statisticsExact_iff (maxTrades : Int) (trades : List (TradeBuffer ℚ))
    (hquantities : ∀ trade ∈ trades, 1 ≤ trade.quantity ∧ trade.quantity ≤ intMax)
    (history : TradeHistory ℚ) (hhistory : (create maxTrades).addTrades trades = .ok history)
    (symbol : CString) :
    StatisticsExact history symbol ↔
      volume symbol history.trades ≤ intMax ∧
        ∀ trade ∈ history.trades, Readable symbol trade := by
  have hpos : ∀ trade ∈ tradesOf symbol history.trades, 1 ≤ trade.quantity := fun trade htrade =>
    (hquantities trade (mem_of_addTrades hhistory trade (List.mem_of_mem_filter htrade))).1
  have hvalues : ∀ value ∈ (tradesOf symbol history.trades).map TradeBuffer.quantity,
      1 ≤ value := by
    intro value hvalue
    obtain ⟨trade, htrade, rfl⟩ := List.mem_map.mp hvalue
    exact hpos trade htrade
  constructor
  · intro hexact
    have hvolume := hexact.volume_eq
    have hreadable : ∀ trade ∈ history.trades, Readable symbol trade := by
      intro trade htrade
      by_contra hnot
      rw [getVolume, addVolume_of_not_readable htrade hnot] at hvolume
      cases hvolume
    rw [getVolume, addVolume_eq hreadable] at hvolume
    exact ⟨(sumInt_of_pos hvalues).mp (Except.ok.inj hvolume), hreadable⟩
  · rintro ⟨hfits, hreadable⟩
    have hsum : sumInt 0 ((tradesOf symbol history.trades).map TradeBuffer.quantity) =
        some (volume symbol history.trades) := (sumInt_of_pos hvalues).mpr hfits
    refine ⟨?_, fun hsome => ?_⟩
    · rw [getVolume, addVolume_eq hreadable, hsum]
    · have hpositive : 0 < volume symbol history.trades := by
        obtain ⟨trade, htrade⟩ := List.exists_mem_of_ne_nil _ hsome
        refine lt_of_lt_of_le (by have := hpos trade htrade; omega) (List.single_le_sum ?_ _
          (List.mem_map_of_mem htrade))
        exact fun value hvalue => le_trans zero_le_one (hvalues value hvalue)
      refine ⟨hpositive, ?_, betweenPrices_average hsome (fun trade htrade => ?_) hpositive⟩
      · rw [getVwap, addVolumePrice_eq hreadable, hsum, zero_add]
        change Except.ok (some (if 0 < volume symbol history.trades then _ else _)) = _
        rw [if_pos hpositive]
      · exact le_trans zero_le_one (hpos trade htrade)

/-- A trade of `AAPL` at 10. -/
def sharesOf (quantity : Int) : TradeBuffer ℚ :=
  { TradeBuffer.zero 10 with
    symbol := (CharArray.zero 16).strncpy "AAPL".toList
    quantity := quantity }

/-- A history with two trades. -/
def tradedTwice (first second : Int) : TradeHistory ℚ where
  trades := [sharesOf second, sharesOf first]
  tradeCount := 2
  maxTrades := 1000

theorem statisticsExact_two_trades : StatisticsExact (tradedTwice 3 4) "AAPL".toList :=
  (statisticsExact_iff 1000 [sharesOf 3, sharesOf 4] (by decide) (tradedTwice 3 4) rfl
    "AAPL".toList).mpr ⟨by decide +kernel, by decide +kernel⟩

/-- The volume of two trades that a client can receive overflows. -/
theorem volume_overflows :
    (create 1000).addTrades [sharesOf 2147483647, sharesOf 1] =
      .ok (tradedTwice 2147483647 1) ∧
    (∀ trade ∈ [sharesOf 2147483647, sharesOf 1], 1 ≤ trade.quantity ∧ trade.quantity ≤ intMax) ∧
    (tradedTwice 2147483647 1).getVolume "AAPL".toList = .ok none ∧
    ¬ StatisticsExact (tradedTwice 2147483647 1) "AAPL".toList := by
  have hoverflow : (tradedTwice 2147483647 1).getVolume "AAPL".toList = .ok none := by
    rw [getVolume, addVolume_eq (by decide +kernel)]
    decide +kernel
  refine ⟨rfl, by decide, hoverflow, fun hexact => ?_⟩
  have hvolume := hexact.volume_eq
  rw [hoverflow] at hvolume
  cases hvolume

end TradeHistory

end QuantTrading
