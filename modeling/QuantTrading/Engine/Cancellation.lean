import QuantTrading.Engine.BookRuns

/-! # Cancelling by id

The loop of `order_book_cancel_order` steers by comparing the key of a node with
the key of the order in that same node. In an aligned book the two are copies of
each other, so the loop walks one fixed path, whatever id it looks for: right
children only, except that a buy node whose price does not equal itself (NaN)
sends it to the left. An order off that path cannot be cancelled.
-/

namespace QuantTrading

variable {α ι : Type*}

namespace AVLNode

/-- The orders on the right spine: the root, its right child and so on. -/
def rightSpine : AVLNode α ι → List ι
  | .nil => []
  | .node entry _ right _ => entry.order :: rightSpine right

variable [LT α] [DecidableLT α] [BEq α]

/-- The orders on the path of the cancellation loop. -/
def searchPath (isBuyTree : Bool) : AVLNode α ι → List ι
  | .nil => []
  | .node entry left right _ =>
      entry.order ::
        if compareNodes entry.price entry.timestamp entry.price entry.timestamp isBuyTree < 0 then
          searchPath isBuyTree left
        else
          searchPath isBuyTree right

/-- When prices equal themselves the path is the right spine. -/
theorem searchPath_eq_rightSpine [ReflBEq α] (isBuyTree : Bool) (node : AVLNode α ι) :
    searchPath isBuyTree node = rightSpine node := by
  induction node with
  | nil => rfl
  | node entry left right height _ ihRight =>
      have hzero : compareNodes entry.price entry.timestamp entry.price entry.timestamp
          isBuyTree = 0 := compareNodes_eq_zero_iff.mpr ⟨beq_self_eq_true _, rfl⟩
      simp [searchPath, rightSpine, hzero, ihRight]

theorem mem_of_mem_searchPath {isBuyTree : Bool} {node : AVLNode α ι} {order : ι}
    (horder : order ∈ searchPath isBuyTree node) : order ∈ node.toList.map Entry.order := by
  induction node with
  | nil => simp [searchPath] at horder
  | node entry left right height ihLeft ihRight =>
      unfold searchPath at horder
      simp only [HeightTree.toList_node, List.map_append, List.map_cons, List.mem_append,
        List.mem_cons]
      rcases List.mem_cons.mp horder with rfl | htail
      · exact Or.inr (Or.inl rfl)
      · split_ifs at htail
        · exact Or.inl (ihLeft htail)
        · exact Or.inr (Or.inr (ihRight htail))

end AVLNode

namespace Engine

variable [LT α] [DecidableLT α] [BEq α]

/-- In an aligned tree the loop returns the first order on its path with the id. -/
theorem searchById_eq_find? {orders : ι → Order α} {side : Bool} {node : AVLNode α ι}
    (haligned : ∀ entry ∈ node.toList, entry = Entry.of orders entry.order ∧
      (orders entry.order).isBuyOrder = side) (orderId : CString) (isBuyOrder : Bool) :
    searchById orders orderId isBuyOrder node =
      (node.searchPath isBuyOrder).find? fun order => (orders order).orderId = orderId := by
  induction node with
  | nil => rfl
  | node entry left right height ihLeft ihRight =>
      simp only [HeightTree.toList_node, List.mem_append, List.mem_cons] at haligned
      -- the node's key is its order's key: the comparison is of a key with itself
      have hkey := (haligned entry (Or.inr (Or.inl rfl))).1
      have hprice : (orders entry.order).price = entry.price :=
        (congrArg Entry.price hkey).symm
      have htimestamp : (orders entry.order).timestamp = entry.timestamp :=
        (congrArg Entry.timestamp hkey).symm
      have hleft := ihLeft fun other hother => haligned other (Or.inl hother)
      have hright := ihRight fun other hother => haligned other (Or.inr (Or.inr hother))
      unfold searchById AVLNode.searchPath
      by_cases hid : (orders entry.order).orderId = orderId
      · simp [hid]
      · rw [if_neg hid, hprice, htimestamp, List.find?_cons_of_neg (by simpa using hid)]
        split_ifs
        · exact hleft
        · exact hright

/-- The order found in an aligned book is in the tree that was searched and has the id. -/
theorem Aligned.searchById_spec {state : Engine α ι} (haligned : state.Aligned)
    {orderId : CString} {isBuyOrder : Bool} {order : ι}
    (hsearch : searchById state.orders orderId isBuyOrder
      (state.book.side isBuyOrder).root = some order) :
    order ∈ (state.book.side isBuyOrder).orders ∧ (state.orders order).orderId = orderId := by
  have hfind := searchById_eq_find? (haligned.side isBuyOrder) orderId isBuyOrder
  rw [hsearch] at hfind
  constructor
  · exact AVLNode.mem_of_mem_searchPath (List.mem_of_find?_eq_some hfind.symm)
  · simpa using List.find?_some hfind.symm

variable [DecidableEq ι]

/-- A cancellation of an aligned book succeeds exactly when an order with the id
lies on the path, and then marks one such order. -/
theorem Aligned.cancelOrder_cases {state : Engine α ι} (haligned : state.Aligned)
    (orderId : CString) (isBuyOrder : Bool) :
    (∃ order ∈ (state.book.side isBuyOrder).root.searchPath isBuyOrder,
      (state.orders order).orderId = orderId ∧
      state.cancelOrder orderId isBuyOrder = (0, { state with
        orders := Function.update state.orders order
          { state.orders order with isCanceled := true } })) ∨
    ((∀ order ∈ (state.book.side isBuyOrder).root.searchPath isBuyOrder,
      (state.orders order).orderId ≠ orderId) ∧
      state.cancelOrder orderId isBuyOrder = (-1, state)) := by
  have hfind := searchById_eq_find? (haligned.side isBuyOrder) orderId isBuyOrder
  rcases state.cancelOrder_cases orderId isBuyOrder with ⟨order, hsearch, hcancel⟩ |
    ⟨hsearch, hcancel⟩
  · rw [hsearch] at hfind
    refine Or.inl ⟨order, List.mem_of_find?_eq_some hfind.symm, ?_, hcancel⟩
    simpa using List.find?_some hfind.symm
  · rw [hsearch] at hfind
    refine Or.inr ⟨fun order horder => ?_, hcancel⟩
    simpa using List.find?_eq_none.mp hfind.symm order horder

/-- In every reachable book a cancellation does what its caller expects, that is
it finds the id whenever some order of the side has it, marks exactly one such
order and otherwise changes nothing, if and only if the id occurs on the path of
the search or nowhere in the tree. -/
theorem run_cancelOrder_finds_iff (orders : ι → Order α) (ops : List (BookOp ι))
    (orderId : CString) (isBuyOrder : Bool) :
    let state := Transition.run Engine.perform (init orders) ops
    let tree := state.book.side isBuyOrder
    let result := state.cancelOrder orderId isBuyOrder
    ((result.1 = 0 ↔ ∃ order ∈ tree.orders, (state.orders order).orderId = orderId) ∧
      (result.1 = 0 → ∃ order ∈ tree.orders, (state.orders order).orderId = orderId ∧
        result.2 = { state with
          orders := Function.update state.orders order
            { state.orders order with isCanceled := true } }) ∧
      (result.1 = -1 → result.2 = state)) ↔
    ((∃ order ∈ tree.orders, (state.orders order).orderId = orderId) →
      ∃ order ∈ tree.root.searchPath isBuyOrder, (state.orders order).orderId = orderId) := by
  intro state tree result
  have haligned : state.Aligned := run_aligned orders ops
  have hpath : ∀ order ∈ tree.root.searchPath isBuyOrder, order ∈ tree.orders :=
    fun order horder => AVLNode.mem_of_mem_searchPath horder
  rcases haligned.cancelOrder_cases orderId isBuyOrder with ⟨order, horder, hid, hcancel⟩ |
    ⟨hnone, hcancel⟩
  · have hresult : result = _ := hcancel
    refine iff_of_true ⟨?_, ?_, ?_⟩ fun _ => ⟨order, horder, hid⟩
    · rw [hresult]
      exact iff_of_true rfl ⟨order, hpath order horder, hid⟩
    · intro _
      exact ⟨order, hpath order horder, hid, by rw [hresult]⟩
    · intro hfail
      rw [hresult] at hfail
      exact absurd hfail (by simp)
  · have hresult : result = (-1, state) := hcancel
    have hnotZero : ¬ result.1 = 0 := by simp [hresult]
    constructor
    · rintro ⟨hiff, _, _⟩ hstored
      exact absurd (hiff.mpr hstored) hnotZero
    · intro hfinds
      have habsent : ¬ ∃ order ∈ tree.orders, (state.orders order).orderId = orderId := by
        intro hstored
        obtain ⟨order, horder, hid⟩ := hfinds hstored
        exact hnone order horder hid
      exact ⟨iff_of_false hnotZero habsent, fun hzero => absurd hzero hnotZero,
        fun _ => by rw [hresult]⟩

/-- Two bids; the second becomes the left child of the first. -/
def twoBids : Nat → Order Int
  | 0 => Order.sample "A" 10 5 true 1
  | _ => Order.sample "B" 9 5 true 2

/-- The lower of two resting bids is stored but cannot be cancelled. -/
theorem cancelOrder_misses_left_child :
    let state := Transition.run Engine.perform (init twoBids) [.add 0, .add 1]
    ¬ ((state.cancelOrder "B".toList true).1 = 0 ↔
      ∃ order ∈ (state.book.side true).orders, (state.orders order).orderId = "B".toList) := by
  decide

end Engine

end QuantTrading
