import QuantTrading.Engine.BookMemory
import QuantTrading.Engine.BookRuns

/-! # Who owns the memory of a book

A book owns its record, its trees and their nodes; the orders belong to whoever
allocated them. From `order_book_create` to `order_book_destroy` a run of calls computes
what the same run computes on `Engine`, gives all of the book's cells back, and leaves
every order allocated.
-/

namespace QuantTrading

open Separation Separation.Assertion Separation.Triple TreeMemory

variable {α β : Type}

namespace BookMemory

/-- A book with its trees and the orders. -/
def bookAt (book : Nat) (owned : Finset Nat) (state : Engine α Nat) : Assertion (EngineCell α) :=
  any fun place : Nat × Nat × TradeBroadcaster =>
    points book (.book (some place.1) (some place.2.1) (some place.2.2)) *
      contentsAt place.1 place.2.1 owned state

section Record

variable {book : Nat} {owned : Finset Nat} {state : Engine α Nat}
  {other : Assertion (EngineCell α)} {post : β → Assertion (EngineCell α)}

theorem bookAt_intro {buyOrders sellOrders : Nat} {broadcaster : TradeBroadcaster}
    {part : Heap (EngineCell α)}
    (hpart : (contentsAt buyOrders sellOrders owned state *
      (points book (.book (some buyOrders) (some sellOrders) (some broadcaster)) * other) :
        Assertion (EngineCell α)) part) :
    (bookAt book owned state * other) part := by
  rw [bookAt, any_mul]
  refine any_intro (buyOrders, sellOrders, broadcaster) ?_
  rw [mul_assoc, mul_left_comm]
  exact hpart

/-- A book from its parts, in the order in which `contentsAt` lists them. -/
theorem bookAt_of_parts {buyOrders sellOrders : Nat} {broadcaster : TradeBroadcaster}
    {part : Heap (EngineCell α)}
    (hpart : (recordAt buyOrders state.book.buyOrders *
      (recordAt sellOrders state.book.sellOrders * (ordersAt owned state.orders *
        (points book (.book (some buyOrders) (some sellOrders) (some broadcaster)) * other))) :
          Assertion (EngineCell α)) part) :
    (bookAt book owned state * other) part := by
  apply bookAt_intro
  rw [contentsAt, mul_assoc, mul_assoc]
  exact hpart

/-- Opening a book: its record stays beside the trees and the orders. -/
theorem open_book {program : Program (EngineCell α) β}
    (h : ∀ buyOrders sellOrders broadcaster, Triple
      (points book (.book (some buyOrders) (some sellOrders) (some broadcaster)) *
        (contentsAt buyOrders sellOrders owned state * other)) program post) :
    Triple (bookAt book owned state * other) program post := by
  refine of_any_mul fun place => ?_
  rw [mul_assoc]
  exact h place.1 place.2.1 place.2.2

theorem loadBook_bind {buyOrders sellOrders : Option Nat} {broadcaster : Option TradeBroadcaster}
    {next : Option Nat × Option Nat × Option TradeBroadcaster → Program (EngineCell α) β}
    (hnext : Triple (points book (.book buyOrders sellOrders broadcaster) * other)
      (next (buyOrders, sellOrders, broadcaster)) post) :
    Triple (points book (.book buyOrders sellOrders broadcaster) * other)
      (loadBook book >>= next) post := by
  rw [loadBook, bind_assoc]
  exact load_bind rfl hnext

/-! ## Creation and destruction -/

/-- `order_book_create` makes an empty book, or gives back all it had allocated. -/
theorem orderBookCreate_spec (allocator : Allocator (EngineCell α))
    (broadcaster : Option TradeBroadcaster) (orders : Nat → Order α) (owned : Finset Nat) :
    Triple (ordersAt owned orders) (orderBookCreate allocator broadcaster) fun result =>
      match result with
      | none => fact (allocator.Fails ∨ broadcaster = none) * ordersAt owned orders
      | some book => bookAt book owned (Engine.init orders) := by
  rw [orderBookCreate]
  refine (allocate allocator _).call (one_mul _).symm fun book => ?_
  cases book with
  | none =>
      refine Triple.pure fun part hpart => ?_
      obtain ⟨hfails, hpart⟩ := fact_mul_apply.mp hpart
      exact fact_mul_apply.mpr ⟨Or.inl hfails, hpart⟩
  | some book =>
      refine (avlCreate_spec allocator true _).bind fun buyOrders => ?_
      cases buyOrders with
      | none =>
          refine of_fact_mul fun hfails => free_bind rfl (Triple.pure fun part hpart => ?_)
          exact fact_mul_apply.mpr ⟨Or.inl hfails, hpart⟩
      | some buyOrders =>
          dsimp only
          rw [mul_left_comm]
          refine store_bind rfl ?_
          refine (avlCreate_spec allocator false _).bind fun sellOrders => ?_
          cases sellOrders with
          | none =>
              refine of_fact_mul fun hfails => ?_
              rw [mul_left_comm]
              refine (avlDestroy_spec (Nat.le_refl 0)).bind fun _ => free_bind rfl ?_
              exact Triple.pure fun part hpart => fact_mul_apply.mpr ⟨Or.inl hfails, hpart⟩
          | some sellOrders =>
              dsimp only
              rw [mul_left_comm]
              refine store_bind rfl ?_
              cases broadcaster with
              | none =>
                  rw [mul_left_comm]
                  refine (avlDestroy_spec (Nat.le_refl 0)).bind fun _ => ?_
                  rw [mul_left_comm]
                  refine (avlDestroy_spec (Nat.le_refl 0)).bind fun _ => free_bind rfl ?_
                  exact Triple.pure fun part hpart => fact_mul_apply.mpr ⟨Or.inr rfl, hpart⟩
              | some broadcaster =>
                  refine Triple.pure fun part hpart => ?_
                  refine any_intro (buyOrders, sellOrders, broadcaster) ?_
                  rw [mul_left_comm (recordAt sellOrders _)] at hpart
                  exact hpart

/-- `order_book_destroy` frees the record, the trees and their nodes, and no order. -/
theorem orderBookDestroy_spec {bound depth : Nat} (hfits : Fits bound owned state)
    (hdepth : bound + 1 < Nat.fib (depth + 2)) :
    Triple (bookAt book owned state * other) (orderBookDestroy depth (some book)) fun _ =>
      ordersAt owned state.orders * other := by
  refine open_book fun buyOrders sellOrders broadcaster => ?_
  rw [orderBookDestroy]
  apply loadBook_bind
  dsimp only
  refine Triple.reorder (recordAt buyOrders state.book.buyOrders *
    (points book (.book (some buyOrders) (some sellOrders) (some broadcaster)) *
      (recordAt sellOrders state.book.sellOrders * (ordersAt owned state.orders * other))))
    (by rw [contentsAt]; ac_rfl) ?_
  refine (avlDestroy_spec (hfits.buy_height hdepth).le).bind fun _ => ?_
  apply loadBook_bind
  refine store_bind rfl ?_
  apply loadBook_bind
  dsimp only
  rw [mul_left_comm]
  refine (avlDestroy_spec (hfits.sell_height hdepth).le).bind fun _ => ?_
  apply loadBook_bind
  refine store_bind rfl ?_
  exact free.last rfl fun _ part hpart => by rwa [one_mul] at hpart

/-! ## Calls -/

section Calls

variable {bound depth : Nat}

theorem countQuantityCallback_spec [BEq α] (orders : Nat → Order α) (price : α) {order : Nat}
    (horder : order ∈ owned) (total : Option Int) :
    Triple (ordersAt owned orders) (countQuantityCallback price order total) fun result =>
      fact (result = Engine.countQuantityCallback orders price order total) *
        ordersAt owned orders := by
  rw [countQuantityCallback, ← mul_one (ordersAt owned orders)]
  apply loadOrder_bind horder
  rw [mul_one, Engine.countQuantityCallback]
  split_ifs
  · exact Triple.pure fun part hpart => fact_mul_apply.mpr ⟨rfl, hpart⟩
  · exact Triple.pure fun part hpart => fact_mul_apply.mpr ⟨rfl, hpart⟩

/-- `order_book_get_quantity_at_price` only reads. -/
theorem orderBookGetQuantityAtPrice_spec [BEq α] (hfits : Fits bound owned state)
    (hdepth : bound + 1 < Nat.fib (depth + 2)) (price : α) (isBuyOrder : Bool) :
    Triple (bookAt book owned state * other)
      (orderBookGetQuantityAtPrice depth (some book) price isBuyOrder) fun result =>
        fact (result = state.getQuantityAtPrice price isBuyOrder) *
          (bookAt book owned state * other) := by
  have hcallback : ∀ order ∈ (state.book.side isBuyOrder).orders, ∀ total : Option Int,
      Triple (ordersAt owned state.orders) (countQuantityCallback price order total)
        fun result => fact (result =
          Engine.countQuantityCallback state.orders price order total) *
            ordersAt owned state.orders :=
    fun order horder => countQuantityCallback_spec state.orders price
      (hfits.stored isBuyOrder order horder)
  refine open_book fun buyOrders sellOrders broadcaster => ?_
  rw [orderBookGetQuantityAtPrice]
  apply loadBook_bind
  cases isBuyOrder with
  | true =>
      refine Triple.reorder (recordAt buyOrders state.book.buyOrders * ordersAt owned state.orders *
        (recordAt sellOrders state.book.sellOrders *
          (points book (.book (some buyOrders) (some sellOrders) (some broadcaster)) * other)))
        (by rw [contentsAt]; ac_rfl) ?_
      refine (avlInorderTraverse_spec (hfits.buy_height hdepth).le hcallback (some 0)).last rfl
        fun result part hpart => ?_
      rw [mul_assoc] at hpart
      obtain ⟨hresult, hpart⟩ := fact_mul_apply.mp hpart
      rw [mul_assoc, mul_left_comm (ordersAt _ _)] at hpart
      exact fact_mul_apply.mpr ⟨hresult, bookAt_of_parts hpart⟩
  | false =>
      refine Triple.reorder (recordAt sellOrders state.book.sellOrders *
        ordersAt owned state.orders * (recordAt buyOrders state.book.buyOrders *
          (points book (.book (some buyOrders) (some sellOrders) (some broadcaster)) * other)))
        (by rw [contentsAt]; ac_rfl) ?_
      refine (avlInorderTraverse_spec (hfits.sell_height hdepth).le hcallback (some 0)).last rfl
        fun result part hpart => ?_
      rw [mul_assoc] at hpart
      obtain ⟨hresult, hpart⟩ := fact_mul_apply.mp hpart
      rw [mul_assoc, mul_left_comm (ordersAt _ _), mul_left_comm (recordAt sellOrders _)] at hpart
      exact fact_mul_apply.mpr ⟨hresult, bookAt_of_parts hpart⟩

variable [LT α] [DecidableLT α] [BEq α]

/-- What an addition may do: store the order, or nothing when the allocator gives up on some
heap. -/
def Added (allocator : Allocator (EngineCell α)) (order : Nat) (state state' : Engine α Nat) :
    Prop :=
  state' = (state.addOrder order).2 ∨ allocator.Fails ∧ state' = state

/-- `order_book_add_order` answers 0 also when the order was not stored. -/
theorem orderBookAddOrder_spec (allocator : Allocator (EngineCell α))
    (hfits : Fits bound owned state) (hdepth : bound + 1 < Nat.fib (depth + 2)) {order : Nat}
    (horder : order ∈ owned) :
    Triple (bookAt book owned state * other)
      (orderBookAddOrder allocator depth (some book) (some order)) fun result =>
        any fun state' => fact (result = 0 ∧ Added allocator order state state') *
          (bookAt book owned state' * other) := by
  refine open_book fun buyOrders sellOrders broadcaster => ?_
  rw [orderBookAddOrder]
  refine Triple.reorder (ordersAt owned state.orders *
    (points book (.book (some buyOrders) (some sellOrders) (some broadcaster)) *
      (recordAt buyOrders state.book.buyOrders *
        (recordAt sellOrders state.book.sellOrders * other)))) (by rw [contentsAt]; ac_rfl) ?_
  apply loadOrder_bind horder
  rw [mul_left_comm]
  apply loadBook_bind
  dsimp only
  split_ifs with hbuy
  · refine Triple.reorder (recordAt buyOrders state.book.buyOrders *
      (recordAt sellOrders state.book.sellOrders * (ordersAt owned state.orders *
        (points book (.book (some buyOrders) (some sellOrders) (some broadcaster)) * other))))
      (by ac_rfl) ?_
    refine (avlInsert_spec allocator (hfits.buy_height hdepth) _ _ order).bind fun _ =>
      of_any fun tree => of_fact_mul fun htree => Triple.pure fun part hpart => ?_
    refine any_intro { state with book := { state.book with buyOrders := tree } }
      (fact_mul_apply.mpr ⟨⟨rfl, ?_⟩, bookAt_of_parts hpart⟩)
    rcases htree with rfl | ⟨hfails, rfl⟩
    · exact Or.inl (by rw [Engine.addOrder_eq, if_pos hbuy, if_pos hbuy])
    · exact Or.inr ⟨hfails, rfl⟩
  · refine Triple.reorder (recordAt sellOrders state.book.sellOrders *
      (recordAt buyOrders state.book.buyOrders * (ordersAt owned state.orders *
        (points book (.book (some buyOrders) (some sellOrders) (some broadcaster)) * other))))
      (by ac_rfl) ?_
    refine (avlInsert_spec allocator (hfits.sell_height hdepth) _ _ order).bind fun _ =>
      of_any fun tree => of_fact_mul fun htree => Triple.pure fun part hpart => ?_
    rw [mul_left_comm] at hpart
    refine any_intro { state with book := { state.book with sellOrders := tree } }
      (fact_mul_apply.mpr ⟨⟨rfl, ?_⟩, bookAt_of_parts hpart⟩)
    rcases htree with rfl | ⟨hfails, rfl⟩
    · exact Or.inl (by rw [Engine.addOrder_eq, if_neg hbuy, if_neg hbuy])
    · exact Or.inr ⟨hfails, rfl⟩

/-- `order_book_cancel_order`. -/
theorem orderBookCancelOrder_spec (hfits : Fits bound owned state)
    (hdepth : bound + 1 < Nat.fib (depth + 2)) (orderId : CString) (isBuyOrder : Bool) :
    Triple (bookAt book owned state * other)
      (orderBookCancelOrder depth (some book) orderId isBuyOrder) fun result =>
        fact (result = (state.cancelOrder orderId isBuyOrder).1) *
          (bookAt book owned (state.cancelOrder orderId isBuyOrder).2 * other) := by
  have hcancel : state.cancelOrder orderId isBuyOrder =
      (if (Engine.searchById state.orders orderId isBuyOrder
          (state.book.side isBuyOrder).root).isSome then 0 else -1,
        { state with orders := cancelFound state.orders (Engine.searchById state.orders orderId
          isBuyOrder (state.book.side isBuyOrder).root) }) := by
    unfold Engine.cancelOrder
    cases Engine.searchById state.orders orderId isBuyOrder
      (state.book.side isBuyOrder).root <;> rfl
  rw [hcancel]
  refine open_book fun buyOrders sellOrders broadcaster => ?_
  rw [orderBookCancelOrder]
  apply loadBook_bind
  cases isBuyOrder with
  | true =>
      have hmove : ∀ orders : Assertion (EngineCell α), recordAt buyOrders state.book.buyOrders *
          ((recordAt sellOrders state.book.sellOrders * (points book (.book (some buyOrders)
            (some sellOrders) (some broadcaster)) * other)) * orders) =
          recordAt buyOrders state.book.buyOrders * (recordAt sellOrders state.book.sellOrders *
            (orders * (points book (.book (some buyOrders) (some sellOrders)
              (some broadcaster)) * other))) := by
        intro orders
        ac_rfl
      refine Triple.reorder (recordAt buyOrders state.book.buyOrders *
        ((recordAt sellOrders state.book.sellOrders * (points book (.book (some buyOrders)
          (some sellOrders) (some broadcaster)) * other)) * ordersAt owned state.orders))
        (by rw [hmove, contentsAt]; ac_rfl) ?_
      refine (cancelRecord_spec orderId true _ (hfits.buy_height hdepth).le
        (hfits.stored true) state.orders).weaken fun result part hpart => ?_
      rw [hmove] at hpart
      obtain ⟨hresult, hpart⟩ := fact_mul_apply.mp hpart
      exact fact_mul_apply.mpr ⟨hresult, bookAt_of_parts hpart⟩
  | false =>
      have hmove : ∀ orders : Assertion (EngineCell α), recordAt sellOrders state.book.sellOrders *
          ((recordAt buyOrders state.book.buyOrders * (points book (.book (some buyOrders)
            (some sellOrders) (some broadcaster)) * other)) * orders) =
          recordAt buyOrders state.book.buyOrders * (recordAt sellOrders state.book.sellOrders *
            (orders * (points book (.book (some buyOrders) (some sellOrders)
              (some broadcaster)) * other))) := by
        intro orders
        ac_rfl
      refine Triple.reorder (recordAt sellOrders state.book.sellOrders *
        ((recordAt buyOrders state.book.buyOrders * (points book (.book (some buyOrders)
          (some sellOrders) (some broadcaster)) * other)) * ordersAt owned state.orders))
        (by rw [hmove, contentsAt]; ac_rfl) ?_
      refine (cancelRecord_spec orderId false _ (hfits.sell_height hdepth).le
        (hfits.stored false) state.orders).weaken fun result part hpart => ?_
      rw [hmove] at hpart
      obtain ⟨hresult, hpart⟩ := fact_mul_apply.mp hpart
      exact fact_mul_apply.mpr ⟨hresult, bookAt_of_parts hpart⟩

/-- `order_book_match_orders`. -/
theorem orderBookMatchOrders_spec {rounds : Nat} (hfits : Fits bound owned state)
    (hdepth : bound + 1 < Nat.fib (depth + 2)) (haligned : state.Aligned)
    (hrounds : state.matchFuel < rounds) :
    Triple (bookAt book owned state * other) (orderBookMatchOrders depth rounds (some book))
      fun trades => fact (state.matchOrders.trades = state.trades ++ trades) *
        (bookAt book owned state.matchOrders * other) := by
  have hnothing : state.matchingPair = none → state.matchOrders = state := by
    intro hnone
    rw [Engine.matchOrders_eq_loop,
      Transition.loop_of_none (Engine.matchOnce_eq_none_iff.mpr hnone)]
  refine open_book fun buyOrders sellOrders broadcaster => ?_
  rw [orderBookMatchOrders]
  apply loadBook_bind
  have hreturn : state.matchOrders = state →
      Triple (contentsAt buyOrders sellOrders owned state * (points book (.book (some buyOrders)
          (some sellOrders) (some broadcaster)) * other))
        (Pure.pure ([] : List (TradeEvent α Nat))) fun trades =>
          fact (state.matchOrders.trades = state.trades ++ trades) *
            (bookAt book owned state.matchOrders * other) := by
    intro hsame
    rw [hsame]
    refine Triple.pure fun part hpart => fact_mul_apply.mpr ⟨?_, bookAt_intro hpart⟩
    rw [List.append_nil]
  have hsell : contentsAt buyOrders sellOrders owned state * (points book (.book (some buyOrders)
        (some sellOrders) (some broadcaster)) * other) =
      recordAt sellOrders state.book.sellOrders * (recordAt buyOrders state.book.buyOrders *
        (ordersAt owned state.orders * (points book (.book (some buyOrders) (some sellOrders)
          (some broadcaster)) * other))) := by
    rw [contentsAt]
    ac_rfl
  rw [mul_left_comm, contentsAt, mul_assoc]
  apply avlIsEmpty_spec.read_bind
  rw [← mul_assoc]
  change Triple (contentsAt buyOrders sellOrders owned state * _) _ _
  split_ifs with hbuyEmpty
  · exact hreturn (by rw [Engine.matchOrders, if_pos hbuyEmpty])
  rw [hsell]
  apply avlIsEmpty_spec.read_bind
  rw [← hsell]
  split_ifs with hsellEmpty
  · exact hreturn (by rw [Engine.matchOrders, if_neg hbuyEmpty, if_pos hsellEmpty])
  refine bestPair_bind hfits hdepth (fun buy sell hbuy hsell hpair => ?_)
    (fun hnone => hreturn (hnothing hnone)) fun hempty => ?_
  · obtain ⟨rounds, rfl⟩ : ∃ rest, rounds = rest + 1 := ⟨rounds - 1, by omega⟩
    have hstuck := Engine.matchOnce_eq_none_iff.mpr haligned.matchOrders_stuck
    rw [Engine.matchOrders_eq_loop] at hstuck
    have hloop := Transition.loop_eq_of_stuck hstuck (Nat.lt_succ_iff.mp hrounds)
    rw [Engine.matchOrders_eq_loop, ← hloop]
    rw [← hloop] at hstuck
    refine (matchLoop_spec rounds hfits hdepth hstuck).weaken fun trades part hpart => ?_
    obtain ⟨htrades, hpart⟩ := fact_mul_apply.mp hpart
    exact fact_mul_apply.mpr ⟨htrades, bookAt_intro hpart⟩
  · exfalso
    rcases hempty with hmax | hmin
    · rw [AVLTree.findMax_eq, List.getLast?_eq_none_iff] at hmax
      exact hbuyEmpty ((AVLTree.isEmpty_iff _).mpr (List.map_eq_nil_iff.mp hmax))
    · rw [AVLTree.findMin_eq, List.head?_eq_none_iff] at hmin
      exact hsellEmpty ((AVLTree.isEmpty_iff _).mpr (List.map_eq_nil_iff.mp hmin))

/-! ## Runs -/

/-- A call on a book: one that may change it, or the query. -/
inductive BookCall (α : Type) where
  | change (op : BookOp Nat)
  | getQuantityAtPrice (price : α) (isBuyOrder : Bool)

/-- The answer of a call, if it is defined, and the trades it broadcasts. -/
abbrev Reply (α : Type) := Option Int × List (TradeEvent α Nat)

/-- A call on a book in memory. -/
def call (allocator : Allocator (EngineCell α)) (depth rounds book : Nat) :
    BookCall α → Program (EngineCell α) (Reply α)
  | .change (.add order) => do
      let code ← orderBookAddOrder allocator depth (some book) (some order)
      return (some code, [])
  | .change (.cancel orderId isBuyOrder) => do
      let code ← orderBookCancelOrder depth (some book) orderId isBuyOrder
      return (some code, [])
  -- `order_book_match_orders` answers nothing
  | .change .matchOrders => do
      let trades ← orderBookMatchOrders depth rounds (some book)
      return (some 0, trades)
  | .getQuantityAtPrice price isBuyOrder => do
      let total ← orderBookGetQuantityAtPrice depth (some book) price isBuyOrder
      return (total, [])

/-- The answer of a call on `Engine`. -/
def answer (state : Engine α Nat) : BookCall α → Option Int
  | .change (.add order) => some (state.addOrder order).1
  | .change (.cancel orderId isBuyOrder) => some (state.cancelOrder orderId isBuyOrder).1
  | .change .matchOrders => some 0
  | .getQuantityAtPrice price isBuyOrder => state.getQuantityAtPrice price isBuyOrder

/-- What a call makes of `Engine`. -/
def perform (state : Engine α Nat) : BookCall α → Engine α Nat
  | .change op => state.perform op
  | .getQuantityAtPrice _ _ => state

/-- What a call may make of a state: an addition that is refused memory may be lost. -/
def Performed (refused : Prop) (op : BookCall α) (state state' : Engine α Nat) : Prop :=
  state' = perform state op ∨ (∃ order, op = .change (.add order)) ∧ refused ∧ state' = state

/-- The order a call needs is in memory. -/
def Owns (owned : Finset Nat) : BookCall α → Prop
  | .change (.add order) => order ∈ owned
  | _ => True

omit [LT α] [DecidableLT α] [BEq α] in
theorem Fits.matchFuel_le (hfits : Fits bound owned state) : state.matchFuel ≤ 2 * bound := by
  have hbuy := hfits.small true
  have hsell := hfits.small false
  have hsize : state.matchFuel = (state.book.side true).entries.length +
      (state.book.side false).entries.length := by
    rw [AVLTree.entries, AVLTree.entries, HeightTree.length_toList, HeightTree.length_toList]
    rfl
  omega

theorem Fits.change (hfits : Fits bound owned state) {op : BookOp Nat}
    (howns : Owns owned (.change op : BookCall α)) :
    Fits (bound + 1) owned (state.perform op) := by
  cases op with
  | add order =>
      constructor
      · intro isBuyOrder other hother
        rw [Engine.perform, Engine.addOrder_side] at hother
        split_ifs at hother
        · rcases AVLTree.eq_or_mem_orders_of_insert hother with rfl | hold
          · exact howns
          · exact hfits.stored isBuyOrder other hold
        · exact hfits.stored isBuyOrder other hother
      · intro isBuyOrder
        have hsmall := hfits.small isBuyOrder
        rw [Engine.perform, Engine.addOrder_side]
        split_ifs
        · have hle := (state.book.side isBuyOrder).call_length_le
            (.insert (state.orders order).price (state.orders order).timestamp order)
          exact hle.trans (Nat.succ_le_succ hsmall)
        · exact hsmall.trans (Nat.le_succ _)
  | cancel orderId isBuyOrder =>
      have hbook := state.cancelOrder_book orderId isBuyOrder
      constructor
      · intro side order horder
        rw [Engine.perform, hbook] at horder
        exact hfits.stored side order horder
      · intro side
        rw [Engine.perform, hbook]
        exact (hfits.small side).trans (Nat.le_succ _)
  | matchOrders =>
      have hkept : Fits bound owned state.matchOrders := by
        refine Engine.matchOrders_invariant (Fits bound owned)
          (fun current next hcurrent hnext => ?_)
          hfits
        obtain ⟨buy, sell, _, rfl⟩ := Engine.matchOnce_eq_some_iff.mp hnext
        exact hcurrent.tradePair buy sell
      exact ⟨hkept.stored, fun side => (hkept.small side).trans (Nat.le_succ _)⟩

omit [LT α] [DecidableLT α] [BEq α] in
theorem Fits.mono (hfits : Fits bound owned state) {bound' : Nat} (hle : bound ≤ bound') :
    Fits bound' owned state :=
  ⟨hfits.stored, fun isBuyOrder => (hfits.small isBuyOrder).trans hle⟩

theorem Fits.perform (hfits : Fits bound owned state) {op : BookCall α}
    (howns : Owns owned op) : Fits (bound + 1) owned (perform state op) := by
  cases op with
  | change op => exact hfits.change howns
  | getQuantityAtPrice price isBuyOrder => exact hfits.mono (Nat.le_succ bound)

theorem call_spec (allocator : Allocator (EngineCell α)) {rounds : Nat}
    (hfits : Fits bound owned state) (hdepth : bound + 1 < Nat.fib (depth + 2))
    (haligned : state.Aligned) (hrounds : 2 * bound < rounds) (op : BookCall α)
    (howns : Owns owned op) :
    Triple (bookAt book owned state * other) (call allocator depth rounds book op) fun result =>
      any fun state' => fact (Performed allocator.Fails op state state' ∧
          result.1 = answer state op ∧ state'.trades = state.trades ++ result.2) *
        (bookAt book owned state' * other) := by
  rcases op with ⟨order | ⟨orderId, isBuyOrder⟩ | _⟩ | ⟨price, isBuyOrder⟩
  case change.add =>
    refine (orderBookAddOrder_spec allocator hfits hdepth howns).bind fun code =>
      of_any fun state' => of_fact_mul ?_
    rintro ⟨rfl, hadded⟩
    refine Triple.pure fun part hpart => any_intro state' (fact_mul_apply.mpr ⟨?_, hpart⟩)
    have htrades : state'.trades = state.trades := by
      rcases hadded with rfl | ⟨_, rfl⟩
      · rw [Engine.addOrder_eq]
      · rfl
    refine ⟨hadded.imp_right fun hlost => ⟨⟨order, rfl⟩, hlost⟩, ?_, ?_⟩
    · rw [answer, Engine.addOrder_eq]
    · rw [htrades, List.append_nil]
  case change.cancel =>
    refine (orderBookCancelOrder_spec hfits hdepth orderId isBuyOrder).bind fun code =>
      of_fact_mul fun hcode => Triple.pure fun part hpart => ?_
    refine any_intro (state.cancelOrder orderId isBuyOrder).2 (fact_mul_apply.mpr ⟨?_, hpart⟩)
    exact ⟨Or.inl rfl, congrArg some hcode,
      by rw [state.cancelOrder_trades, List.append_nil]⟩
  case change.matchOrders =>
    refine (orderBookMatchOrders_spec hfits hdepth haligned
      (hfits.matchFuel_le.trans_lt hrounds)).bind fun trades =>
        of_fact_mul fun htrades => Triple.pure fun part hpart => ?_
    exact any_intro state.matchOrders (fact_mul_apply.mpr ⟨⟨Or.inl rfl, rfl, htrades⟩, hpart⟩)
  case getQuantityAtPrice =>
    refine (orderBookGetQuantityAtPrice_spec hfits hdepth price isBuyOrder).bind fun total =>
      of_fact_mul fun htotal => Triple.pure fun part hpart => ?_
    exact any_intro state (fact_mul_apply.mpr
      ⟨⟨Or.inl rfl, htotal, (List.append_nil _).symm⟩, hpart⟩)

omit [LT α] [DecidableLT α] [BEq α] in
theorem Fits.init (orders : Nat → Order α) : Fits 0 owned (Engine.init orders) := by
  constructor
  · intro isBuyOrder order horder
    cases isBuyOrder <;> cases horder
  · intro isBuyOrder
    cases isBuyOrder <;> exact Nat.le_refl 0

/-- What holds of a book between the calls of a run. -/
structure Ready (limit : Nat) (owned : Finset Nat) (orders : Nat → Order α)
    (state : Engine α Nat) (rest : List (BookCall α)) : Prop where
  fits : ∃ bound, Fits bound owned state ∧ bound + rest.length ≤ limit
  aligned : state.Aligned
  terms : SameTerms orders state.orders
  owns : ∀ op ∈ rest, Owns owned op

theorem Ready.performed {limit : Nat} {orders : Nat → Order α} {op : BookCall α}
    {rest : List (BookCall α)} {state' : Engine α Nat} {refused : Prop}
    (hready : Ready limit owned orders state (op :: rest))
    (hperformed : Performed refused op state state') : Ready limit owned orders state' rest := by
  obtain ⟨bound, hfits, hlimit⟩ := hready.fits
  rw [List.length_cons] at hlimit
  have howns : ∀ op ∈ rest, Owns owned op :=
    fun other hother => hready.owns other (List.mem_cons_of_mem op hother)
  rcases hperformed with rfl | ⟨_, _, rfl⟩
  · have hop := hready.owns op List.mem_cons_self
    refine ⟨⟨bound + 1, hfits.perform hop, by omega⟩, ?_, ?_, howns⟩
    · cases op with
      | change op => exact hready.aligned.perform op
      | getQuantityAtPrice price isBuyOrder => exact hready.aligned
    · cases op with
      | change op => exact hready.terms.trans (Engine.perform_sameTerms hready.aligned op)
      | getQuantityAtPrice price isBuyOrder => exact hready.terms
  · exact ⟨⟨bound, hfits, by omega⟩, hready.aligned, hready.terms, howns⟩

/-- Perform calls on a book one after another. -/
def callAll (allocator : Allocator (EngineCell α)) (depth rounds book : Nat)
    (ops : List (BookCall α)) : Program (EngineCell α) (List (Reply α)) :=
  ops.foldlM (fun replies op => do
    let reply ← call allocator depth rounds book op
    return replies ++ [reply]) []

/-- A call on the heap that the calls before it left. It answers what `Engine` answers and
broadcasts the trades that are new; an addition is lost only if memory is refused to it on
that heap. -/
def Answered (allocator : Allocator (EngineCell α)) (depth rounds book : Nat) (op : BookCall α)
    (before after : Moment (EngineCell α) (List (Reply α)) (Engine α Nat)) : Prop :=
  ∃ reply, call allocator depth rounds book op before.heap = some (reply, after.heap) ∧
    after.collected = before.collected ++ [reply] ∧ reply.1 = answer before.state op ∧
    after.state.trades = before.state.trades ++ reply.2 ∧
    Performed (allocator.Refuses (call · depth rounds book op) before.heap) op before.state
      after.state

/-- Calls on a book, beside some other heap. -/
theorem callAll_on_heap (allocator : Allocator (EngineCell α)) {rounds limit : Nat}
    (hdepth : limit + 1 < Nat.fib (depth + 2)) (hrounds : 2 * limit < rounds)
    {orders : Nat → Order α} {ops : List (BookCall α)} (hready : Ready limit owned orders state ops)
    {part rest : Heap (EngineCell α)} (hpart : bookAt book owned state part)
    (hdisjoint : part.Disjoint rest) :
    ∃ replies part' state',
      callAll allocator depth rounds book ops (part ∪ rest) = some (replies, part' ∪ rest) ∧
      part'.Disjoint rest ∧
      Path (Answered allocator depth rounds book) ops ⟨part ∪ rest, [], state⟩
        ⟨part' ∪ rest, replies, state'⟩ ∧
      Ready limit owned orders state' [] ∧ bookAt book owned state' part' := by
  refine foldlM_path (fun _ state => bookAt book owned state)
    (Answered allocator depth rounds book)
    (fun state later => Ready limit owned orders state later)
    (fun replies op later state part hready hpart hdisjoint => ?_) hready hpart hdisjoint
  obtain ⟨bound, hfits, hlimit⟩ := hready.fits
  have hle : bound ≤ limit := by omega
  have hspec : ∀ allocator, Triple (bookAt book owned state)
      (call allocator depth rounds book op) fun reply => any fun state' =>
        fact (Performed allocator.Fails op state state' ∧ reply.1 = answer state op ∧
          state'.trades = state.trades ++ reply.2) * bookAt book owned state' := by
    intro allocator
    have hcall : Triple (bookAt book owned state * 1) (call allocator depth rounds book op)
        fun reply => any fun state' => fact (Performed allocator.Fails op state state' ∧
          reply.1 = answer state op ∧ state'.trades = state.trades ++ reply.2) *
            (bookAt book owned state' * 1) :=
      call_spec allocator (hfits.mono hle) hdepth hready.aligned hrounds op
        (hready.owns op List.mem_cons_self)
    simpa only [mul_one] using hcall
  obtain ⟨reply, part', state', hrun, hdisjoint', ⟨hperformed, hanswer, htrades⟩, hpart'⟩ :=
    Triple.on_heap (fun refused (reply : Reply α) state' => Performed refused op state state' ∧
      reply.1 = answer state op ∧ state'.trades = state.trades ++ reply.2) hspec allocator hpart
      hdisjoint
  refine ⟨replies ++ [reply], part', state', ?_, hdisjoint',
    ⟨reply, hrun, rfl, hanswer, htrades, hperformed⟩, hready.performed hperformed, hpart'⟩
  change (call allocator depth rounds book op (part ∪ rest)).bind _ = _
  rw [hrun]
  rfl

/-- The trades of a state are those that were broadcast on the way to it. -/
theorem trades_of_path {allocator : Allocator (EngineCell α)} {rounds : Nat}
    {ops : List (BookCall α)} {start last : Moment (EngineCell α) (List (Reply α)) (Engine α Nat)}
    (hpath : Path (Answered allocator depth rounds book) ops start last)
    (hstart : start.state.trades = (start.collected.map Prod.snd).flatten) :
    last.state.trades = (last.collected.map Prod.snd).flatten := by
  induction hpath with
  | nil moment => exact hstart
  | cons hstep _ ih =>
      obtain ⟨reply, _, hcollected, _, htrades, _⟩ := hstep
      apply ih
      rw [htrades, hcollected, List.map_append, List.flatten_append, hstart]
      simp

/-- With an allocator that never gives up, the calls lead where `perform` does. -/
theorem state_of_path {allocator : Allocator (EngineCell α)} (hnever : ¬ allocator.Fails)
    {rounds : Nat} {ops : List (BookCall α)}
    {start last : Moment (EngineCell α) (List (Reply α)) (Engine α Nat)}
    (hpath : Path (Answered allocator depth rounds book) ops start last) :
    last.state = Transition.run perform start.state ops := by
  induction hpath with
  | nil moment => rfl
  | cons hstep _ ih =>
      obtain ⟨_, _, _, _, _, hperformed⟩ := hstep
      rw [ih, hperformed.resolve_right fun hlost => hnever hlost.2.1.fails, Transition.run_cons]

/-- Create a book and perform calls on it; nothing when the book is refused. -/
def openBook (allocator : Allocator (EngineCell α)) (depth rounds : Nat)
    (broadcaster : Option TradeBroadcaster) (ops : List (BookCall α)) :
    Program (EngineCell α) (Option (Nat × List (Reply α))) := do
  match ← orderBookCreate allocator broadcaster with
  | none => return none
  | some book => do
      let replies ← callAll allocator depth rounds book ops
      return some (book, replies)

/-- A book that is opened on a heap: no book when its memory is refused or there is no
broadcaster, or the book at the end of a path of calls. -/
theorem openBook_on_heap (allocator : Allocator (EngineCell α))
    (broadcaster : Option TradeBroadcaster) {rounds : Nat} {orders : Nat → Order α}
    {ops : List (BookCall α)} (howns : ∀ op ∈ ops, Owns owned op)
    (hdepth : ops.length + 1 < Nat.fib (depth + 2)) (hrounds : 2 * ops.length < rounds)
    {heap rest : Heap (EngineCell α)} (hheap : ordersAt owned orders heap)
    (hdisjoint : heap.Disjoint rest) :
    ∃ result part, openBook allocator depth rounds broadcaster ops (heap ∪ rest) =
        some (result, part ∪ rest) ∧ part.Disjoint rest ∧
      match result with
      | none => (allocator.Refuses (orderBookCreate · broadcaster) (heap ∪ rest) ∨
          broadcaster = none) ∧ ordersAt owned orders part
      | some (book, replies) => ∃ created state,
          orderBookCreate allocator broadcaster (heap ∪ rest) = some (some book, created) ∧
          Path (Answered allocator depth rounds book) ops ⟨created, [], Engine.init orders⟩
            ⟨part ∪ rest, replies, state⟩ ∧
          Ready ops.length owned orders state [] ∧ bookAt book owned state part := by
  obtain ⟨result, part, hcreate, hdisjoint', hcreated⟩ :=
    Triple.pointer_on_heap (fun refused => refused ∨ broadcaster = none)
      (fun allocator => orderBookCreate_spec allocator broadcaster orders owned) allocator hheap
      hdisjoint
  cases result with
  | none =>
      refine ⟨none, part, ?_, hdisjoint', hcreated⟩
      change (orderBookCreate allocator broadcaster (heap ∪ rest)).bind _ = _
      rw [hcreate]
      rfl
  | some book =>
      have hready : Ready ops.length owned orders (Engine.init orders) ops :=
        ⟨⟨0, Fits.init orders, (Nat.zero_add _).le⟩, Engine.init_aligned orders,
          SameTerms.refl orders, howns⟩
      obtain ⟨replies, part', state, hcalls, hdisjoint'', hpath, hend, hpart'⟩ :=
        callAll_on_heap allocator hdepth hrounds hready hcreated hdisjoint'
      refine ⟨some (book, replies), part', ?_, hdisjoint'', _, state, hcreate, hpath, hend, hpart'⟩
      change (orderBookCreate allocator broadcaster (heap ∪ rest)).bind _ = _
      rw [hcreate]
      change (callAll allocator depth rounds book ops (part ∪ rest)).bind _ = _
      rw [hcalls]
      rfl

omit [LT α] [DecidableLT α] [BEq α] in
/-- Orders in memory are exactly the cells at their addresses. -/
theorem keys_of_ordersAt {orders : Nat → Order α} {part : Heap (EngineCell α)}
    (hpart : ordersAt owned orders part) : part.keys = owned := by
  induction owned using Finset.induction_on generalizing part with
  | empty =>
      rw [ordersAt, Finset.prod_empty, one_apply] at hpart
      rw [hpart, Finmap.keys_empty]
  | insert order rest hnew ih =>
      rw [ordersAt, Finset.prod_insert hnew] at hpart
      obtain ⟨first, second, _, rfl, rfl, hsecond⟩ := hpart
      rw [Finmap.keys_union, Finmap.keys_singleton, ih hsecond, Finset.insert_eq]

/-- What a run of calls comes to between two heaps, in a part of the second: the book of a
state to which a path of calls leads, with the trades that were broadcast, and the one to
which all calls lead when no memory is refused; or no book and the orders as they were. -/
def Outcome (allocator : Allocator (EngineCell α)) (broadcaster : Option TradeBroadcaster)
    (depth rounds : Nat) (owned : Finset Nat) (orders : Nat → Order α) (ops : List (BookCall α))
    (before after part : Heap (EngineCell α)) : Option (Nat × List (Reply α)) → Prop
  | none => (allocator.Refuses (orderBookCreate · broadcaster) before ∨ broadcaster = none) ∧
      ordersAt owned orders part
  | some (book, replies) =>
      (∃ created state, orderBookCreate allocator broadcaster before =
          some (some book, created) ∧
        Path (Answered allocator depth rounds book) ops ⟨created, [], Engine.init orders⟩
          ⟨after, replies, state⟩ ∧
        state.trades = (replies.map Prod.snd).flatten ∧ bookAt book owned state part) ∧
      (¬ allocator.Refuses (openBook · depth rounds broadcaster ops) before →
        bookAt book owned (Transition.run perform (Engine.init orders) ops) part)

/-- `order_book.c` on memory refines `Engine`. From any heap that holds the orders of a
run, under any allocator, `order_book_create` and the calls, the queries among them, never
go wrong; they answer and broadcast what the pure calls do, and end with the book and the
orders of a state those calls lead to. An addition is lost only if memory is refused to it on
the heap that it finds, and is answered with 0 all the same. -/
theorem openBook_refines (allocator : Allocator (EngineCell α))
    (broadcaster : Option TradeBroadcaster) (owned : Finset Nat) (orders : Nat → Order α)
    (ops : List (BookCall α)) (howns : ∀ op ∈ ops, Owns owned op) (depth rounds : Nat)
    (hdepth : ops.length + 1 < Nat.fib (depth + 2)) (hrounds : 2 * ops.length < rounds)
    (heap rest : Heap (EngineCell α)) (hheap : ordersAt owned orders heap)
    (hdisjoint : heap.Disjoint rest) :
    ∃ result part, openBook allocator depth rounds broadcaster ops (heap ∪ rest) =
        some (result, part ∪ rest) ∧ part.Disjoint rest ∧
      Outcome allocator broadcaster depth rounds owned orders ops (heap ∪ rest) (part ∪ rest) part
        result := by
  obtain ⟨result, part, hrun, hpartDisjoint, hpart⟩ :=
    openBook_on_heap allocator broadcaster howns hdepth hrounds hheap hdisjoint
  refine ⟨result, part, hrun, hpartDisjoint, ?_⟩
  rcases result with _ | ⟨book, replies⟩
  · exact hpart
  obtain ⟨created, state, hcreate, hpath, _, hbook⟩ := hpart
  refine ⟨⟨created, state, hcreate, hpath, trades_of_path hpath rfl, hbook⟩, fun hgranted => ?_⟩
  obtain ⟨result', part', hrun', hdisjoint', hpart'⟩ :=
    openBook_on_heap allocator.unfailing broadcaster howns hdepth hrounds hheap hdisjoint
  obtain ⟨rfl, hsame⟩ := Prod.ext_iff.mp (Option.some.inj
    (hrun'.symm.trans ((not_not.mp hgranted).symm.trans hrun)))
  obtain rfl := (Finmap.union_cancel hdisjoint' hpartDisjoint).mp hsame
  obtain ⟨_, state', _, hpath', _, hbook'⟩ := hpart'
  exact state_of_path allocator.unfailing_never hpath' ▸ hbook'

/-- The crossing orders in memory. -/
def crossingHeap : Heap (EngineCell Int) :=
  Finmap.singleton 0 (.order (Engine.crossingOrders 0)) ∪
    Finmap.singleton 1 (.order (Engine.crossingOrders 1))

/-- Both orders are added, the bids at the limit of the buy order are asked for, and the
orders meet. -/
def crossingCalls : List (BookCall Int) :=
  [.change (.add 0), .change (.add 1), .getQuantityAtPrice 10 true, .change .matchOrders]

omit [LT α] [DecidableLT α] [BEq α] in
theorem ordersAt_crossingHeap : ordersAt {0, 1} Engine.crossingOrders crossingHeap := by
  rw [ordersAt, Finset.prod_pair Nat.zero_ne_one]
  refine ⟨_, _, ?_, rfl, rfl, rfl⟩
  intro order hfirst hsecond
  rw [Finmap.mem_singleton] at hfirst hsecond
  exact Nat.zero_ne_one (hfirst.symm.trans hsecond)

theorem openBook_refines_crossing :
    ∃ result part, openBook Allocator.highest 4 9 (some ⟨5⟩) crossingCalls
        (crossingHeap ∪ ∅) = some (result, part ∪ ∅) ∧ part.Disjoint ∅ ∧
      Outcome Allocator.highest (some ⟨5⟩) 4 9 {0, 1} Engine.crossingOrders crossingCalls
        (crossingHeap ∪ ∅) (part ∪ ∅) part result :=
  openBook_refines Allocator.highest (some ⟨5⟩) {0, 1} Engine.crossingOrders crossingCalls
    (by simp [crossingCalls, Owns]) 4 9 (by decide) (by decide) crossingHeap ∅
    ordersAt_crossingHeap ((Finmap.disjoint_empty crossingHeap).symm _ _)

/-- Create a book, perform calls on it and destroy it. -/
def session (allocator : Allocator (EngineCell α)) (depth rounds : Nat)
    (broadcaster : Option TradeBroadcaster) (ops : List (BookCall α)) :
    Program (EngineCell α) Unit := do
  let opened ← openBook allocator depth rounds broadcaster ops
  orderBookDestroy depth (opened.map Prod.fst)

/-- After `order_book_destroy` all that the book allocated has been given back, and every
order is still allocated, with the terms it came with. -/
theorem session_keeps_orders (allocator : Allocator (EngineCell α))
    (broadcaster : Option TradeBroadcaster) (owned : Finset Nat) (orders : Nat → Order α)
    (ops : List (BookCall α)) (howns : ∀ op ∈ ops, Owns owned op) (depth rounds : Nat)
    (hdepth : ops.length + 1 < Nat.fib (depth + 2)) (hrounds : 2 * ops.length < rounds)
    (heap rest : Heap (EngineCell α)) (hheap : ordersAt owned orders heap)
    (hdisjoint : heap.Disjoint rest) :
    ∃ orders' part, session allocator depth rounds broadcaster ops (heap ∪ rest) =
        some ((), part ∪ rest) ∧ part.Disjoint rest ∧ part.keys = heap.keys ∧
      SameTerms orders orders' ∧ ordersAt owned orders' part := by
  obtain ⟨result, part, hopen, hpartDisjoint, hpart⟩ :=
    openBook_on_heap allocator broadcaster howns hdepth hrounds hheap hdisjoint
  have hsession : session allocator depth rounds broadcaster ops (heap ∪ rest) =
      orderBookDestroy depth (result.map Prod.fst) (part ∪ rest) := by
    change (openBook allocator depth rounds broadcaster ops (heap ∪ rest)).bind _ = _
    rw [hopen]
    rfl
  rw [hsession]
  rcases result with _ | ⟨book, replies⟩
  · refine ⟨orders, part, rfl, hpartDisjoint, ?_, SameTerms.refl orders, hpart.2⟩
    rw [keys_of_ordersAt hpart.2, keys_of_ordersAt hheap]
  · obtain ⟨_, state, _, _, hready, hbook⟩ := hpart
    obtain ⟨bound, hfits, hlimit⟩ := hready.fits
    have hdestroy : Triple (bookAt book owned state * 1) (orderBookDestroy depth (some book))
        fun _ => ordersAt owned state.orders * 1 :=
      orderBookDestroy_spec (hfits.mono ((Nat.le_add_right _ _).trans hlimit)) hdepth
    simp only [mul_one] at hdestroy
    obtain ⟨_, part', hrun, hdisjoint', horders⟩ := hdestroy part rest hbook hpartDisjoint
    refine ⟨state.orders, part', hrun, hdisjoint', ?_, hready.terms, horders⟩
    rw [keys_of_ordersAt horders, keys_of_ordersAt hheap]

theorem session_keeps_orders_crossing :
    ∃ orders' part, session Allocator.highest 4 9 (some ⟨5⟩) crossingCalls
          (crossingHeap ∪ ∅) = some ((), part ∪ ∅) ∧
        part.Disjoint ∅ ∧ part.keys = crossingHeap.keys ∧
      SameTerms Engine.crossingOrders orders' ∧ ordersAt {0, 1} orders' part :=
  session_keeps_orders Allocator.highest (some ⟨5⟩) {0, 1} Engine.crossingOrders crossingCalls
    (by simp [crossingCalls, Owns]) 4 9 (by decide) (by decide) crossingHeap ∅
    ordersAt_crossingHeap ((Finmap.disjoint_empty crossingHeap).symm _ _)

end Calls

end Record

end BookMemory

end QuantTrading
