import QuantTrading.Client.ClientApp

/-! # The trade history of the client

`trade_history_add_trade` puts a trade at the head of a linked list and makes room for
it by freeing the record that it calls the oldest. That record is the head, the trade
added last, so a full history keeps the trades it was first filled with and replaces
only the newest.
-/

namespace QuantTrading

variable {α : Type}

namespace TradeHistory

/-- `trade_history_create`. -/
def create (maxTrades : Int) : TradeHistory α where
  trades := []
  tradeCount := 0
  maxTrades := maxTrades

/-- Trades passed to `trade_history_add_trade` one after the other. -/
def addTrades (history : TradeHistory α) (trades : List (TradeBuffer α)) :
    Except Fault (TradeHistory α) :=
  trades.foldlM addTrade history

/-- The loop of `trade_history_get_trades` from a record on, after `numTrades` copies. -/
def copyTrades (maxTrades : Int) : List (TradeBuffer α) → Int → List (TradeBuffer α)
  | [], _ => []
  | current :: next, numTrades =>
      if numTrades < maxTrades then current :: copyTrades maxTrades next (numTrades + 1) else []

/-- `trade_history_get_trades`: the trades copied into an array with room for
`maxTrades`; `num_trades` is their number. -/
def getTrades (history : TradeHistory α) (maxTrades : Int) : List (TradeBuffer α) :=
  copyTrades maxTrades history.trades 0

theorem copyTrades_eq (maxTrades : Int) (records : List (TradeBuffer α)) (numTrades : Int) :
    copyTrades maxTrades records numTrades = records.take (maxTrades - numTrades).toNat := by
  induction records generalizing numTrades with
  | nil => simp [copyTrades]
  | cons current next ih =>
      rw [copyTrades]
      split_ifs with hroom
      · have hmore : (maxTrades - numTrades).toNat = (maxTrades - (numTrades + 1)).toNat + 1 := by
          omega
        rw [hmore, List.take_succ_cons, ih]
      · have hnone : (maxTrades - numTrades).toNat = 0 := by omega
        rw [hnone, List.take_zero]

theorem getTrades_eq (history : TradeHistory α) (room : Nat) :
    history.getTrades room = history.trades.take room := by
  rw [getTrades, copyTrades_eq, Int.sub_zero, Int.toNat_natCast]

/-- The trades that a history for `capacity` trades holds, oldest first. -/
def kept (capacity : Nat) (trades : List (TradeBuffer α)) : List (TradeBuffer α) :=
  if trades.length ≤ capacity then trades
  else trades.take (capacity - 1) ++ trades.getLast?.toList

/-- When a history is full, its head is the trade added last. -/
theorem kept_of_full {capacity : Nat} (hcapacity : 0 < capacity) {trades : List (TradeBuffer α)}
    (hfull : capacity ≤ trades.length) :
    ∃ last, trades.getLast? = some last ∧
      kept capacity trades = trades.take (capacity - 1) ++ [last] := by
  obtain ⟨last, hlast⟩ : ∃ last, trades.getLast? = some last := by
    apply Option.ne_none_iff_exists'.mp
    rw [Ne, List.getLast?_eq_none_iff]
    rintro rfl
    simp at hfull
    omega
  refine ⟨last, hlast, ?_⟩
  unfold kept
  split_ifs with hfits
  · obtain ⟨front, rfl⟩ := List.getLast?_eq_some_iff.mp hlast
    rw [List.length_append, List.length_singleton] at hfull hfits
    rw [List.take_append_of_le_length (by omega), List.take_of_length_le (by omega)]
  · rw [hlast]
    rfl

/-- The history after some trades. -/
structure Holds (maxTrades : Int) (trades : List (TradeBuffer α)) (history : TradeHistory α) :
    Prop where
  records : history.trades = (kept maxTrades.toNat trades).reverse
  tradeCount : history.tradeCount = min (trades.length : Int) maxTrades
  maxTrades : history.maxTrades = maxTrades

theorem Holds.addTrade {maxTrades : Int} (hmax : 1 ≤ maxTrades) {trades : List (TradeBuffer α)}
    {history : TradeHistory α} (hholds : Holds maxTrades trades history) (trade : TradeBuffer α) :
    ∃ after, history.addTrade trade = .ok after ∧ Holds maxTrades (trades ++ [trade]) after := by
  have hcount := hholds.tradeCount
  have hmaximum := hholds.maxTrades
  have hpositive : 0 < maxTrades.toNat := by omega
  have hlonger : (((trades ++ [trade]).length : Nat) : Int) = trades.length + 1 := by simp
  unfold TradeHistory.addTrade
  split_ifs with hfull
  · -- a full history drops the trade added last
    have hlength : maxTrades.toNat ≤ trades.length := by omega
    have hlength' : maxTrades.toNat ≤ (trades ++ [trade]).length := by omega
    obtain ⟨last, _, hkept⟩ := kept_of_full hpositive hlength
    obtain ⟨_, hnew, hkept'⟩ := kept_of_full hpositive hlength'
    have hrecords := hholds.records
    rw [hkept, List.reverse_append, List.reverse_singleton, List.singleton_append] at hrecords
    rw [hrecords]
    refine ⟨_, rfl, ?_, ?_, hmaximum⟩
    · obtain rfl := Option.some.inj (List.getLast?_concat.symm.trans hnew)
      rw [hkept', List.take_append_of_le_length (by omega), List.reverse_append]
      rfl
    · rw [hlonger]
      change history.tradeCount = _
      omega
  · have hkept : kept maxTrades.toNat trades = trades := if_pos (by omega)
    have hkept' : kept maxTrades.toNat (trades ++ [trade]) = trades ++ [trade] :=
      if_pos (by omega)
    refine ⟨_, rfl, ?_, ?_, hmaximum⟩
    · rw [hkept', List.reverse_append, hholds.records, hkept]
      rfl
    · rw [hlonger]
      change history.tradeCount + 1 = _
      omega

/-- What a history holds after any trades; adding one never fails. -/
theorem addTrades_holds {maxTrades : Int} (hmax : 1 ≤ maxTrades) (trades : List (TradeBuffer α)) :
    ∃ history, (create maxTrades).addTrades trades = .ok history ∧
      Holds maxTrades trades history := by
  induction trades using List.reverseRecOn with
  | nil =>
      refine ⟨create maxTrades, rfl, ?_, ?_, rfl⟩
      · simp [create, kept]
      · change (0 : Int) = _
        rw [List.length_nil]
        omega
  | append_singleton trades trade ih =>
      obtain ⟨history, hhistory, hholds⟩ := ih
      obtain ⟨after, hafter, hholds'⟩ := hholds.addTrade hmax trade
      refine ⟨after, ?_, hholds'⟩
      rw [addTrades, List.foldlM_append, ← addTrades, hhistory]
      change [trade].foldlM TradeHistory.addTrade history = _
      rw [List.foldlM_cons, hafter]
      rfl

/-- The history counts its trades and hands out the ones added last, newest first. -/
def KeepsRecent (maxTrades : Int) (trades : List (TradeBuffer α)) : Prop :=
  ∃ history, (create maxTrades).addTrades trades = .ok history ∧
    history.tradeCount = history.trades.length ∧
    history.tradeCount = min (trades.length : Int) maxTrades ∧
    ∀ room : Nat, history.getTrades room =
      trades.reverse.take (min room history.tradeCount.toNat)

theorem length_kept {capacity : Nat} (hcapacity : 0 < capacity) (trades : List (TradeBuffer α)) :
    (kept capacity trades).length = min trades.length capacity := by
  rcases Nat.le_total trades.length capacity with hfits | hfull
  · rw [kept, if_pos hfits, Nat.min_eq_left hfits]
  · obtain ⟨last, _, hkept⟩ := kept_of_full hcapacity hfull
    rw [hkept, List.length_append, List.length_take, List.length_singleton]
    omega

/-- The trades of a history are the last ones when none was dropped, or when those that
were kept are like those that were not. -/
theorem kept_eq_recent_iff {capacity : Nat} (hcapacity : 0 < capacity)
    (trades : List (TradeBuffer α)) :
    (kept capacity trades).reverse = trades.reverse.take capacity ↔
      trades.length ≤ capacity ∨
        trades.take (capacity - 1) = trades.dropLast.drop (trades.length - capacity) := by
  rcases Nat.lt_or_ge capacity trades.length with hfull | hfits
  swap
  · have hall : trades.reverse.take capacity = trades.reverse :=
      List.take_of_length_le (by rw [List.length_reverse]; exact hfits)
    rw [kept, if_pos hfits, hall]
    simp [hfits]
  · obtain ⟨last, hlast, hkept⟩ := kept_of_full hcapacity hfull.le
    obtain ⟨front, rfl⟩ := List.getLast?_eq_some_iff.mp hlast
    obtain ⟨others, rfl⟩ : ∃ others, capacity = others + 1 := ⟨capacity - 1, by omega⟩
    have hlength : (front ++ [last]).length = front.length + 1 := by simp
    have hdropped : ¬ (front ++ [last]).length ≤ others + 1 := by omega
    have hskipped : (front ++ [last]).length - (others + 1) = front.length - others := by omega
    rw [or_iff_right hdropped, hskipped, hkept, List.reverse_append, List.reverse_append,
      List.reverse_singleton, List.singleton_append, List.singleton_append, List.take_succ_cons,
      List.cons.injEq, List.dropLast_concat, List.take_reverse, List.reverse_inj]
    exact and_iff_right rfl

/-- After any trades, a history that has room for one keeps the most recent ones if and only if
no more than `max_trades` were added, or the trades it was filled with first are, one by one, like
those added just before the last. -/
theorem keepsRecent_iff (maxTrades : Int) (hmax : 1 ≤ maxTrades) (trades : List (TradeBuffer α)) :
    KeepsRecent maxTrades trades ↔
      (trades.length : Int) ≤ maxTrades ∨ trades.take (maxTrades.toNat - 1) =
        trades.dropLast.drop (trades.length - maxTrades.toNat) := by
  have hpositive : 0 < maxTrades.toNat := by omega
  obtain ⟨history, hhistory, hholds⟩ := addTrades_holds hmax trades
  have hcount := hholds.tradeCount
  have hlength : history.trades.length = min trades.length maxTrades.toNat := by
    rw [hholds.records, List.length_reverse, length_kept hpositive]
  have hfits : (trades.length : Int) ≤ maxTrades ↔ trades.length ≤ maxTrades.toNat := by omega
  rw [hfits, ← kept_eq_recent_iff hpositive, ← hholds.records]
  constructor
  · rintro ⟨history', hhistory', _, _, hrecent⟩
    obtain rfl : history = history' := Except.ok.inj (hhistory.symm.trans hhistory')
    have hfull := hrecent maxTrades.toNat
    rw [getTrades_eq, List.take_of_length_le (by omega)] at hfull
    rw [hfull, List.take_eq_take_iff, List.length_reverse]
    omega
  · intro hrecent
    refine ⟨history, hhistory, by omega, hcount, fun room => ?_⟩
    rw [getTrades_eq, hrecent, List.take_take, List.take_eq_take_iff, List.length_reverse]
    omega

/-! ## A history for two trades -/

/-- A trade of one share at a price. -/
def tradeAt (price : Int) : TradeBuffer Int :=
  { TradeBuffer.zero price with quantity := 1 }

theorem keepsRecent_two_trades : KeepsRecent 2 [tradeAt 1, tradeAt 2] :=
  (keepsRecent_iff 2 (by decide) [tradeAt 1, tradeAt 2]).mpr (Or.inl (by decide))

/-- The third trade takes the place of the second, and the first stays. -/
theorem third_trade_drops_second :
    ((create 2).addTrades [tradeAt 1, tradeAt 2, tradeAt 3]).map (fun history =>
        (history.getTrades 2).map TradeBuffer.price) = .ok [3, 1] ∧
      ¬ KeepsRecent 2 [tradeAt 1, tradeAt 2, tradeAt 3] := by
  refine ⟨rfl, ?_⟩
  rintro ⟨history, hhistory, _, _, hrecent⟩
  cases hhistory
  have hprices := congrArg (List.map TradeBuffer.price) (hrecent 2)
  exact absurd hprices (by decide)

end TradeHistory

end QuantTrading
