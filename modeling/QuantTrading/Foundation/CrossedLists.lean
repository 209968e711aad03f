import Mathlib.Algebra.BigOperators.Group.List.Basic
import Mathlib.Algebra.Order.BigOperators.Group.List
import Mathlib.Algebra.Order.Ring.Int
import Mathlib.Data.List.Basic
import Mathlib.Order.Bounds.Basic
import Mathlib.Order.Lattice

/-! # Crossing two lists of priced lots

A lot is an item with the quantity of it that is still open. Bids are listed from
the highest price down and offers from the lowest price up; while the first bid is
not below the first offer, the two trade what both still have. What is traded in
this way is the largest quantity that demand and supply have in common at any one
price.
-/

namespace CrossedLists

variable {α β : Type*}

/-- What two items trade with each other. -/
structure Deal (β : Type*) where
  buyer : β
  seller : β
  quantity : Int
deriving DecidableEq, Repr

/-- The deals of two lists and the lots that are left. -/
structure Crossing (β : Type*) where
  deals : List (Deal β)
  bids : List (β × Int)
  asks : List (β × Int)
deriving DecidableEq, Repr

/-- A list without its first lot when that lot is exhausted. -/
def dropExhausted : List (β × Int) → List (β × Int)
  | [] => []
  | lot :: rest => if lot.2 = 0 then rest else lot :: rest

theorem dropExhausted_length_le (lots : List (β × Int)) :
    (dropExhausted lots).length ≤ lots.length := by
  cases lots with
  | nil => exact Nat.le_refl _
  | cons lot rest =>
      rw [dropExhausted]
      split_ifs <;> simp

theorem dropExhausted_of_eq_zero {lot : β × Int} (hzero : lot.2 = 0) (rest : List (β × Int)) :
    dropExhausted (lot :: rest) = rest :=
  if_pos hzero

/-- After a trade of what both have, one of the two first lots is gone. -/
theorem dropExhausted_lengths_lt (buyer seller : β) (bid ask : Int) (bids asks : List (β × Int)) :
    (dropExhausted ((buyer, bid - min bid ask) :: bids)).length +
        (dropExhausted ((seller, ask - min bid ask) :: asks)).length <
      ((buyer, bid) :: bids).length + ((seller, ask) :: asks).length := by
  have hbids := dropExhausted_length_le ((buyer, bid - min bid ask) :: bids)
  have hasks := dropExhausted_length_le ((seller, ask - min bid ask) :: asks)
  simp only [List.length_cons] at hbids hasks ⊢
  rcases le_total bid ask with hle | hle
  · rw [dropExhausted_of_eq_zero (by simp [hle])]
    omega
  · have hgone : (seller, ask - min bid ask).2 = 0 := by simp [hle]
    rw [dropExhausted_of_eq_zero hgone]
    omega

section Matching

variable [LE α] [DecidableLE α]

/-- Trade the first bid with the first offer as long as the bid's price is at least
the offer's. -/
def cross (price : β → α) : List (β × Int) → List (β × Int) → Crossing β
  | (buyer, bid) :: bids, (seller, ask) :: asks =>
      if price buyer ≥ price seller then
        let quantity := min bid ask
        let rest := cross price (dropExhausted ((buyer, bid - quantity) :: bids))
          (dropExhausted ((seller, ask - quantity) :: asks))
        { rest with deals := ⟨buyer, seller, quantity⟩ :: rest.deals }
      else ⟨[], (buyer, bid) :: bids, (seller, ask) :: asks⟩
  | bids, asks => ⟨[], bids, asks⟩
termination_by bids asks => bids.length + asks.length
decreasing_by exact dropExhausted_lengths_lt buyer seller bid ask bids asks

variable {price : β → α}

theorem cross_nil_left (asks : List (β × Int)) : cross price [] asks = ⟨[], [], asks⟩ := by
  rw [cross]
  intro _ _ _ _ _ _ hnil
  cases hnil

theorem cross_nil_right (bids : List (β × Int)) : cross price bids [] = ⟨[], bids, []⟩ := by
  rw [cross]
  intro _ _ _ _ _ _ _ hnil
  cases hnil

theorem cross_cons_of_le {buyer seller : β} (hprice : price seller ≤ price buyer)
    (bid ask : Int) (bids asks : List (β × Int)) :
    cross price ((buyer, bid) :: bids) ((seller, ask) :: asks) =
      let rest := cross price (dropExhausted ((buyer, bid - min bid ask) :: bids))
        (dropExhausted ((seller, ask - min bid ask) :: asks))
      { rest with deals := ⟨buyer, seller, min bid ask⟩ :: rest.deals } := by
  rw [cross, if_pos hprice]

theorem cross_cons_of_not_le {buyer seller : β} (hprice : ¬ price seller ≤ price buyer)
    (bid ask : Int) (bids asks : List (β × Int)) :
    cross price ((buyer, bid) :: bids) ((seller, ask) :: asks) =
      ⟨[], (buyer, bid) :: bids, (seller, ask) :: asks⟩ := by
  rw [cross, if_neg hprice]

end Matching

/-- The quantity of all deals. -/
def dealtQuantity (deals : List (Deal β)) : Int :=
  (deals.map Deal.quantity).sum

@[simp] theorem dealtQuantity_nil : dealtQuantity ([] : List (Deal β)) = 0 := rfl

@[simp] theorem dealtQuantity_cons (deal : Deal β) (deals : List (Deal β)) :
    dealtQuantity (deal :: deals) = deal.quantity + dealtQuantity deals := by
  simp [dealtQuantity]

/-! ## Demand and supply -/

/-- The open quantity of the items that count. -/
def openQuantity (counts : β → Bool) (lots : List (β × Int)) : Int :=
  ((lots.filter fun lot => counts lot.1).map Prod.snd).sum

@[simp] theorem openQuantity_nil (counts : β → Bool) : openQuantity counts [] = 0 := rfl

@[simp] theorem openQuantity_cons (counts : β → Bool) (item : β) (quantity : Int)
    (lots : List (β × Int)) :
    openQuantity counts ((item, quantity) :: lots) =
      (if counts item then quantity else 0) + openQuantity counts lots := by
  unfold openQuantity
  cases hcounts : counts item <;> simp [hcounts]

@[simp] theorem openQuantity_dropExhausted (counts : β → Bool) (lots : List (β × Int)) :
    openQuantity counts (dropExhausted lots) = openQuantity counts lots := by
  cases lots with
  | nil => rfl
  | cons lot rest =>
      obtain ⟨item, quantity⟩ := lot
      rw [dropExhausted]
      split_ifs with hzero
      · have hquantity : quantity = 0 := hzero
        simp [hquantity]
      · rfl

theorem openQuantity_nonneg {counts : β → Bool} {lots : List (β × Int)}
    (hpos : ∀ lot ∈ lots, 0 < lot.2) : 0 ≤ openQuantity counts lots := by
  apply List.sum_nonneg
  intro quantity hquantity
  obtain ⟨lot, hlot, rfl⟩ := List.mem_map.mp hquantity
  exact (hpos lot (List.mem_of_mem_filter hlot)).le

/-- Only items that count are open. -/
theorem exists_of_openQuantity_pos {counts : β → Bool} {lots : List (β × Int)}
    (hpos : 0 < openQuantity counts lots) : ∃ lot ∈ lots, counts lot.1 = true := by
  by_contra hnone
  have hfilter : lots.filter (fun lot => counts lot.1) = [] := by
    apply List.filter_eq_nil_iff.mpr
    intro lot hlot hcounts
    exact hnone ⟨lot, hlot, hcounts⟩
  rw [openQuantity, hfilter] at hpos
  exact absurd hpos (by simp)

theorem openQuantity_eq_zero {counts : β → Bool} {lots : List (β × Int)}
    (hnone : ∀ lot ∈ lots, counts lot.1 = false) : openQuantity counts lots = 0 := by
  have hfilter : lots.filter (fun lot => counts lot.1) = [] := by
    apply List.filter_eq_nil_iff.mpr
    intro lot hlot
    simp [hnone lot hlot]
  rw [openQuantity, hfilter]
  rfl

section Volume

variable [LinearOrder α] (price : β → α)

/-- What the bids at or above a price ask for. -/
def demand (bids : List (β × Int)) (limit : α) : Int :=
  openQuantity (fun item => limit ≤ price item) bids

/-- What the offers at or below a price hold. -/
def supply (asks : List (β × Int)) (limit : α) : Int :=
  openQuantity (fun item => price item ≤ limit) asks

/-- Bids and offers in the order in which they trade, with something left in each. -/
structure Listed (bids asks : List (β × Int)) : Prop where
  bidsDescend : bids.Pairwise fun first second => price second.1 ≤ price first.1
  asksAscend : asks.Pairwise fun first second => price first.1 ≤ price second.1
  bidsPos : ∀ lot ∈ bids, 0 < lot.2
  asksPos : ∀ lot ∈ asks, 0 < lot.2

variable {price}

/-- The first lot of a list after part of it was traded. -/
theorem dropExhausted_pos {item : β} {quantity part : Int} {rest : List (β × Int)}
    (hpos : ∀ lot ∈ (item, quantity) :: rest, 0 < lot.2) (hpart : part ≤ quantity) :
    ∀ lot ∈ dropExhausted ((item, quantity - part) :: rest), 0 < lot.2 := by
  have hrest : ∀ lot ∈ rest, 0 < lot.2 := fun lot hlot => hpos lot (List.mem_cons_of_mem _ hlot)
  rw [dropExhausted]
  split_ifs with hzero
  · exact hrest
  · intro lot hlot
    rcases List.mem_cons.mp hlot with rfl | hlot
    · have hne : quantity - part ≠ 0 := hzero
      change 0 < quantity - part
      omega
    · exact hrest lot hlot

/-- Reducing the first lot does not change the order of a list. -/
theorem dropExhausted_pairwise (relates : β → β → Prop) {item : β} {quantity left : Int}
    {rest : List (β × Int)}
    (hpairs : ((item, quantity) :: rest).Pairwise fun first second => relates first.1 second.1) :
    (dropExhausted ((item, left) :: rest)).Pairwise
      fun first second => relates first.1 second.1 := by
  obtain ⟨hhead, hrest⟩ := List.pairwise_cons.mp hpairs
  rw [dropExhausted]
  split_ifs
  · exact hrest
  · exact List.pairwise_cons.mpr ⟨hhead, hrest⟩

theorem Listed.traded {buyer seller : β} {bid ask : Int} {bids asks : List (β × Int)}
    (hlisted : Listed price ((buyer, bid) :: bids) ((seller, ask) :: asks)) :
    Listed price (dropExhausted ((buyer, bid - min bid ask) :: bids))
      (dropExhausted ((seller, ask - min bid ask) :: asks)) where
  bidsDescend := dropExhausted_pairwise (fun first second => price second ≤ price first)
    hlisted.bidsDescend
  asksAscend := dropExhausted_pairwise (fun first second => price first ≤ price second)
    hlisted.asksAscend
  bidsPos := dropExhausted_pos hlisted.bidsPos (min_le_left bid ask)
  asksPos := dropExhausted_pos hlisted.asksPos (min_le_right bid ask)

/-- What counts in a list before part of its first lot was traded. -/
theorem openQuantity_traded (counts : β → Bool) (item : β) (quantity part : Int)
    (rest : List (β × Int)) :
    openQuantity counts ((item, quantity) :: rest) = (if counts item then part else 0) +
      openQuantity counts (dropExhausted ((item, quantity - part) :: rest)) := by
  rw [openQuantity_dropExhausted, openQuantity_cons, openQuantity_cons]
  split_ifs <;> omega

/-- No bid is above the first one, whatever is left of that. -/
theorem Listed.bid_le_first {buyer : β} {bid left : Int} {bids asks : List (β × Int)}
    (hlisted : Listed price ((buyer, bid) :: bids) asks) :
    ∀ lot ∈ (buyer, left) :: bids, price lot.1 ≤ price buyer := by
  intro lot hlot
  rcases List.mem_cons.mp hlot with rfl | hlot
  · exact le_rfl
  · exact (List.pairwise_cons.mp hlisted.bidsDescend).1 lot hlot

/-- No offer is below the first one. -/
theorem Listed.first_le_ask {seller : β} {ask left : Int} {bids asks : List (β × Int)}
    (hlisted : Listed price bids ((seller, ask) :: asks)) :
    ∀ lot ∈ (seller, left) :: asks, price seller ≤ price lot.1 := by
  intro lot hlot
  rcases List.mem_cons.mp hlot with rfl | hlot
  · exact le_rfl
  · exact (List.pairwise_cons.mp hlisted.asksAscend).1 lot hlot

/-- At every price, the demand or the supply is used up. -/
theorem demand_le_or_supply_le (bids asks : List (β × Int)) (hlisted : Listed price bids asks)
    (limit : α) :
    demand price bids limit ≤ dealtQuantity (cross price bids asks).deals ∨
      supply price asks limit ≤ dealtQuantity (cross price bids asks).deals := by
  fun_induction cross price bids asks with
  | case1 buyer bid bids seller ask asks hprice quantity rest ih =>
      have hquantity : 0 < quantity := lt_min (hlisted.bidsPos (buyer, bid) List.mem_cons_self)
        (hlisted.asksPos (seller, ask) List.mem_cons_self)
      have hpart : ∀ counts : Bool, (if counts then quantity else 0) ≤ quantity := by
        intro counts
        cases counts <;> simp [hquantity.le]
      rw [dealtQuantity_cons]
      rcases ih hlisted.traded with hdemand | hsupply
      · left
        rw [demand, openQuantity_traded _ buyer bid quantity]
        exact add_le_add (hpart _) hdemand
      · right
        rw [supply, openQuantity_traded _ seller ask quantity]
        exact add_le_add (hpart _) hsupply
  | case2 buyer bid bids seller ask asks hprice =>
      -- the first bid is below the first offer, so a price cannot reach both
      rw [dealtQuantity_nil]
      have hbelow : price buyer < price seller := lt_of_not_ge hprice
      rcases le_or_gt limit (price buyer) with hle | hlt
      · right
        apply le_of_eq
        apply openQuantity_eq_zero
        intro lot hlot
        have hlimit : limit < price lot.1 :=
          (hle.trans_lt hbelow).trans_le (hlisted.first_le_ask lot hlot)
        simpa using hlimit
      · left
        apply le_of_eq
        apply openQuantity_eq_zero
        intro lot hlot
        have hlimit : price lot.1 < limit := (hlisted.bid_le_first lot hlot).trans_lt hlt
        simpa using hlimit
  | case3 bids asks hnil =>
      rw [dealtQuantity_nil]
      cases bids with
      | nil => exact Or.inl le_rfl
      | cons lot bids =>
          cases asks with
          | nil => exact Or.inr le_rfl
          | cons other asks => exact (hnil lot.1 lot.2 bids other.1 other.2 asks rfl rfl).elim

/-- The first bid is at least as high as any that is left after it traded. -/
theorem Listed.le_first_bid {buyer : β} {bid left : Int} {bids asks : List (β × Int)}
    (hlisted : Listed price ((buyer, bid) :: bids) asks) {limit : α}
    (hdemand : 0 < demand price (dropExhausted ((buyer, left) :: bids)) limit) :
    limit ≤ price buyer := by
  rw [demand, openQuantity_dropExhausted] at hdemand
  obtain ⟨lot, hlot, hcounts⟩ := exists_of_openQuantity_pos hdemand
  have hlimit : limit ≤ price lot.1 := by simpa using hcounts
  exact hlimit.trans (hlisted.bid_le_first lot hlot)

theorem Listed.first_ask_le {seller : β} {ask left : Int} {bids asks : List (β × Int)}
    (hlisted : Listed price bids ((seller, ask) :: asks)) {limit : α}
    (hsupply : 0 < supply price (dropExhausted ((seller, left) :: asks)) limit) :
    price seller ≤ limit := by
  rw [supply, openQuantity_dropExhausted] at hsupply
  obtain ⟨lot, hlot, hcounts⟩ := exists_of_openQuantity_pos hsupply
  have hlimit : price lot.1 ≤ limit := by simpa using hcounts
  exact (hlisted.first_le_ask lot hlot).trans hlimit

/-- Some price has the demand and the supply of everything that trades. -/
theorem exists_dealt_le [Nonempty α] (bids asks : List (β × Int))
    (hlisted : Listed price bids asks) :
    ∃ limit, dealtQuantity (cross price bids asks).deals ≤ demand price bids limit ∧
      dealtQuantity (cross price bids asks).deals ≤ supply price asks limit := by
  have hidle : ∃ limit, 0 ≤ demand price bids limit ∧ 0 ≤ supply price asks limit :=
    ⟨Classical.arbitrary α, openQuantity_nonneg hlisted.bidsPos,
      openQuantity_nonneg hlisted.asksPos⟩
  fun_induction cross price bids asks with
  | case1 buyer bid bids seller ask asks hprice quantity rest ih =>
      have hafter := hlisted.traded
      have hdemand : ∀ limit, demand price ((buyer, bid) :: bids) limit =
          (if limit ≤ price buyer then quantity else 0) +
            demand price (dropExhausted ((buyer, bid - quantity) :: bids)) limit := by
        intro limit
        simpa [demand] using openQuantity_traded (fun item => decide (limit ≤ price item)) buyer bid
          quantity bids
      have hsupply : ∀ limit, supply price ((seller, ask) :: asks) limit =
          (if price seller ≤ limit then quantity else 0) +
            supply price (dropExhausted ((seller, ask - quantity) :: asks)) limit := by
        intro limit
        simpa [supply] using openQuantity_traded (fun item => decide (price item ≤ limit)) seller
          ask quantity asks
      obtain ⟨limit, hdemandLe, hsupplyLe⟩ := ih hafter ⟨Classical.arbitrary α,
        openQuantity_nonneg hafter.bidsPos, openQuantity_nonneg hafter.asksPos⟩
      rw [dealtQuantity_cons]
      -- a price of the later deals also serves this one; without any, the offer's own price does
      rcases lt_or_ge 0 (dealtQuantity rest.deals) with hmore | hdone
      · refine ⟨limit, ?_, ?_⟩
        · rw [hdemand, if_pos (hlisted.le_first_bid (hmore.trans_le hdemandLe))]
          exact add_le_add le_rfl hdemandLe
        · rw [hsupply, if_pos (hlisted.first_ask_le (hmore.trans_le hsupplyLe))]
          exact add_le_add le_rfl hsupplyLe
      · refine ⟨price seller, ?_, ?_⟩
        · rw [hdemand, if_pos hprice]
          exact add_le_add le_rfl (hdone.trans (openQuantity_nonneg hafter.bidsPos))
        · rw [hsupply, if_pos le_rfl]
          exact add_le_add le_rfl (hdone.trans (openQuantity_nonneg hafter.asksPos))
  | case2 buyer bid bids seller ask asks hprice => exact hidle
  | case3 bids asks hnil => exact hidle

/-- What trades is the largest quantity that demand and supply share at one price. -/
theorem dealt_isGreatest [Nonempty α] {bids asks : List (β × Int)}
    (hlisted : Listed price bids asks) :
    IsGreatest (Set.range fun limit => min (demand price bids limit) (supply price asks limit))
      (dealtQuantity (cross price bids asks).deals) := by
  have hupper : ∀ limit, min (demand price bids limit) (supply price asks limit) ≤
      dealtQuantity (cross price bids asks).deals := fun limit =>
    min_le_iff.mpr (demand_le_or_supply_le bids asks hlisted limit)
  constructor
  · obtain ⟨limit, hdemand, hsupply⟩ := exists_dealt_le bids asks hlisted
    exact ⟨limit, le_antisymm (hupper limit) (le_min hdemand hsupply)⟩
  · rintro _ ⟨limit, rfl⟩
    exact hupper limit

end Volume

end CrossedLists
