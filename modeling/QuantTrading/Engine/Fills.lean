import QuantTrading.Engine.Ledger
import QuantTrading.Engine.Representation

/-! # What matching does to the orders

One call of `order_book_match_orders`, seen from the orders: it trades live stored
orders only, takes from an order what its trades say, and leaves no order in a tree
that it has filled.
-/

namespace QuantTrading

variable {α ι : Type*}

theorem tradedQuantity_of_unnamed [DecidableEq ι] {trades : List (TradeEvent α ι)} {order : ι}
    (hunnamed : ∀ event ∈ trades, ¬ event.Names order) : tradedQuantity trades order = 0 := by
  rw [tradedQuantity, List.filter_eq_nil_iff.mpr]
  · rfl
  · intro event hevent
    simpa using hunnamed event hevent

theorem tradedQuantity_pos [DecidableEq ι] {trades : List (TradeEvent α ι)} {order : ι}
    (hpos : ∀ event ∈ trades, 0 < event.quantity) {event : TradeEvent α ι} (hevent : event ∈ trades)
    (hnames : event.Names order) : 0 < tradedQuantity trades order := by
  obtain ⟨first, second, rfl⟩ := List.append_of_mem hevent
  have hfirst : 0 ≤ tradedQuantity first order :=
    tradedQuantity_nonneg (fun other hother => hpos other (List.mem_append_left _ hother)) order
  have hsecond : 0 ≤ tradedQuantity second order :=
    tradedQuantity_nonneg (fun other hother => hpos other
      (List.mem_append_right _ (List.mem_cons_of_mem _ hother))) order
  have hquantity := hpos event hevent
  have hsingle : tradedQuantity [event] order = event.quantity := by
    rw [tradedQuantity_singleton]
    exact if_pos hnames
  rw [tradedQuantity_append, ← List.singleton_append, tradedQuantity_append, hsingle]
  omega

namespace Engine

variable [LinearOrder α] [DecidableEq ι]

/-- An order that an iteration takes out of its tree has traded, and nothing of it is
left. -/
theorem Traded.left {state state' : Engine α ι} {buy sell order : ι}
    (htraded : Traded state state' buy sell) (hordered : state.Ordered)
    (horder : order ∈ state.storedOrders) : order ∈ state'.storedOrders ∨
      (state'.orders order).remainingQuantity = 0 ∧ ∃ event ∈ state'.trades, event.Names order := by
  -- on either side: all nodes stay but that of the party, which has traded
  have hside : ∀ {tree tree' : AVLTree α ι} {party : ι}, party = buy ∨ party = sell →
      tree'.entries = (if (state'.orders party).remainingQuantity = 0 then
        tree.entries.filter fun entry => entry.order ≠ party else tree.entries) →
      order ∈ tree.orders → order ∈ tree'.orders ∨ (state'.orders order).remainingQuantity = 0 ∧
        ∃ event ∈ state'.trades, event.Names order := by
    intro tree tree' party hparty hentries hstored
    by_cases hfilled : order = party ∧ (state'.orders party).remainingQuantity = 0
    · obtain ⟨rfl, hzero⟩ := hfilled
      refine Or.inr ⟨hzero, ?_⟩
      rw [htraded.trades]
      exact ⟨_, List.mem_append_right _ (List.mem_singleton_self _),
        hparty.imp Eq.symm Eq.symm⟩
    · left
      obtain ⟨entry, hentry, rfl⟩ := AVLTree.mem_orders.mp hstored
      refine AVLTree.mem_orders.mpr ⟨entry, ?_, rfl⟩
      rw [hentries]
      split_ifs with hzero
      · exact List.mem_filter.mpr ⟨hentry, decide_eq_true fun heq => hfilled ⟨heq, hzero⟩⟩
      · exact hentry
  rcases Engine.mem_storedOrders.mp horder with hstored | hstored
  · exact (hside (Or.inl rfl) (htraded.buyEntries hordered) hstored).imp_left fun h =>
      Engine.mem_storedOrders.mpr (Or.inl h)
  · exact (hside (Or.inr rfl) (htraded.sellEntries hordered) hstored).imp_left fun h =>
      Engine.mem_storedOrders.mpr (Or.inr h)

/-- The second state follows from the first by matching. -/
structure Matched (before after : Engine α ι) : Prop where
  ordered : after.Ordered
  sameTerms : SameTerms before.orders after.orders
  canceled : ∀ order, (after.orders order).isCanceled = (before.orders order).isCanceled
  stored : ∀ order ∈ after.storedOrders, order ∈ before.storedOrders
  others : ∀ order, order ∉ before.storedOrders → after.orders order = before.orders order
  unfilled : ∀ order ∈ after.storedOrders,
    (after.orders order).remainingQuantity ≠ 0 ∨ after.orders order = before.orders order
  left : ∀ order ∈ before.storedOrders, order ∈ after.storedOrders ∨
    (after.orders order).remainingQuantity = 0 ∧ ∃ event ∈ after.trades, event.Names order
  trades : ∃ events, after.trades = before.trades ++ events ∧
    ∀ event ∈ events, 0 < event.quantity ∧ ∀ order, event.Names order →
      order ∈ before.storedOrders ∧ (before.orders order).isCanceled = false
  balance : ∀ order, tradedQuantity after.trades order + (after.orders order).remainingQuantity =
    tradedQuantity before.trades order + (before.orders order).remainingQuantity

namespace Matched

variable {before state state' : Engine α ι}

theorem refl (hordered : before.Ordered) : Matched before before where
  ordered := hordered
  sameTerms := SameTerms.refl before.orders
  canceled := fun _ => rfl
  stored := fun _ horder => horder
  others := fun _ _ => rfl
  unfilled := fun _ _ => Or.inr rfl
  left := fun _ horder => Or.inl horder
  trades := ⟨[], (List.append_nil _).symm, nofun⟩
  balance := fun _ => rfl

theorem traded (hmatched : Matched before state) {buy sell : ι}
    (htraded : Traded state state' buy sell) : Matched before state' := by
  have hordered := hmatched.ordered
  have hbuy := hmatched.stored buy (mem_storedOrders.mpr (Or.inl htraded.buy_mem))
  have hsell := hmatched.stored sell (mem_storedOrders.mpr (Or.inr htraded.sell_mem))
  obtain ⟨events, hevents, hsound⟩ := hmatched.trades
  refine ⟨htraded.ordered hordered, hmatched.sameTerms.trans htraded.sameTerms, ?_, ?_, ?_, ?_, ?_,
    ?_, ?_⟩
  · intro order
    rw [htraded.isCanceled, hmatched.canceled]
  · exact fun order horder => hmatched.stored order (htraded.mem_storedOrders horder)
  · intro order hnotStored
    rw [htraded.others order, hmatched.others order hnotStored]
    · rintro rfl
      exact hnotStored hbuy
    · rintro rfl
      exact hnotStored hsell
  · intro order horder
    by_cases hside : order = buy ∨ order = sell
    · exact Or.inl (htraded.remaining_ne_zero hordered horder hside)
    · rw [htraded.others order (fun h => hside (Or.inl h)) (fun h => hside (Or.inr h))]
      exact hmatched.unfilled order (htraded.mem_storedOrders horder)
  · intro order horder
    rcases hmatched.left order horder with hstored | ⟨hzero, event, hevent, hnames⟩
    · exact htraded.left hordered hstored
    · -- with nothing left an order is no party to the trade
      refine Or.inr ⟨?_, event, ?_, hnames⟩
      · rw [htraded.others order, hzero]
        · rintro rfl
          exact htraded.buyLive.2.ne' hzero
        · rintro rfl
          exact htraded.sellLive.2.ne' hzero
      · rw [htraded.trades]
        exact List.mem_append_left _ hevent
  · rw [htraded.trades, hevents, List.append_assoc]
    refine ⟨_, rfl, fun event hevent => ?_⟩
    rcases List.mem_append.mp hevent with hold | hnew
    · exact hsound event hold
    · rw [List.mem_singleton.mp hnew]
      refine ⟨htraded.quantity_pos.1, ?_⟩
      rintro order (rfl | rfl)
      · exact ⟨hbuy, (hmatched.canceled _).symm.trans htraded.buyLive.1⟩
      · exact ⟨hsell, (hmatched.canceled _).symm.trans htraded.sellLive.1⟩
  · intro order
    have hstep := htraded.tradedQuantity_eq order
    have hbalance := hmatched.balance order
    omega

end Matched

/-- What a call of `order_book_match_orders` does to an ordered book. -/
theorem Ordered.matched {state : Engine α ι} (hordered : state.Ordered) :
    Matched state state.matchOrders := by
  apply matchOrders_invariant (Matched state)
  · intro current next hmatched hnext
    obtain ⟨buy, sell, htraded⟩ := hmatched.ordered.aligned.traded hnext
    exact hmatched.traded htraded
  · exact Matched.refl hordered

end Engine

end QuantTrading
