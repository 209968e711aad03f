import QuantTrading.Engine.TreePrograms

/-! # What the tree programs leave in memory

A tree in memory is a part of the heap with one cell for each node and nothing else.
Every program of `TreePrograms` is specified by a triple on such parts: it goes
nowhere wrong, computes the tree that the function on `AVLNode` computes, and owns
afterwards exactly the cells of that tree.
-/

namespace QuantTrading.TreeMemory

open Separation Separation.Assertion Separation.Triple

variable {α β : Type}

/-! ## Trees in memory -/

/-- A node with the addresses of its children. -/
def nodeAt (address : Nat) (entry : Entry α Nat) (left right : Option Nat) (height : Nat) :
    Assertion (EngineCell α) :=
  points address (.node ⟨entry.price, entry.timestamp, entry.order, left, right, height⟩)

/-- A tree: a cell for each of its nodes. -/
def treeAt : Option Nat → AVLNode α Nat → Assertion (EngineCell α)
  | pointer, .nil => fact (pointer = none)
  | pointer, .node entry left right height =>
      any fun place : Nat × Option Nat × Option Nat =>
        fact (pointer = some place.1) *
          (nodeAt place.1 entry place.2.1 place.2.2 height *
            (treeAt place.2.1 left * treeAt place.2.2 right))

/-- Three assertions about the cells of a node, and a fourth one beside them. -/
theorem node_reorder (p q r s : Assertion (EngineCell α)) :
    p * (q * r) * s = p * (q * (r * s)) := by
  simp only [mul_assoc]

/-- A node and its two subtrees are a tree. -/
theorem treeAt_fold {address height : Nat} {entry : Entry α Nat} {l r : Option Nat}
    {left right : AVLNode α Nat} {other : Assertion (EngineCell α)} {part : Heap (EngineCell α)}
    (hpart : (nodeAt address entry l r height * (treeAt l left * (treeAt r right * other))) part) :
    (treeAt (some address) (.node entry left right height) * other) part := by
  rw [← node_reorder] at hpart
  refine mul_mono_left (fun part' hpart' => ?_) other part hpart
  exact any_intro (address, l, r) (fact_mul_apply.mpr ⟨rfl, hpart'⟩)

theorem treeAt_nil_intro {other : Assertion (EngineCell α)} {part : Heap (EngineCell α)}
    (hpart : other part) : (treeAt none (.nil : AVLNode α Nat) * other) part :=
  fact_mul_apply.mpr ⟨rfl, hpart⟩

section Rules

variable {pointer l r : Option Nat} {address height : Nat} {entry : Entry α Nat}
  {left right tree : AVLNode α Nat} {other : Assertion (EngineCell α)}
  {post : β → Assertion (EngineCell α)}

/-- Opening the root of a tree. -/
theorem open_node {program : Program (EngineCell α) β}
    (h : ∀ address l r, pointer = some address → Triple
      (nodeAt address entry l r height * (treeAt l left * (treeAt r right * other)))
      program post) :
    Triple (treeAt pointer (.node entry left right height) * other) program post := by
  refine of_any_mul fun place => ?_
  rw [mul_assoc]
  refine of_fact_mul fun hpointer => ?_
  rw [node_reorder]
  exact h place.1 place.2.1 place.2.2 hpointer

/-- Opening the empty tree. -/
theorem open_nil {program : Program (EngineCell α) β}
    (h : pointer = none → Triple other program post) :
    Triple (treeAt pointer (.nil : AVLNode α Nat) * other) program post :=
  of_fact_mul h

/-- Closing a node and its subtrees. -/
theorem close_node {program : Program (EngineCell α) β}
    (h : Triple (treeAt (some address) (.node entry left right height) * other) program post) :
    Triple (nodeAt address entry l r height * (treeAt l left * (treeAt r right * other)))
      program post :=
  h.consequence (fun _ => treeAt_fold) fun _ _ => id

/-! ## Fields -/

theorem loadNode_bind {next : NodeCell α → Program (EngineCell α) β}
    (hnext : Triple (nodeAt address entry l r height * other)
      (next ⟨entry.price, entry.timestamp, entry.order, l, r, height⟩) post) :
    Triple (nodeAt address entry l r height * other) (loadNode (some address) >>= next) post := by
  rw [loadNode, bind_assoc]
  exact load_bind rfl hnext

theorem setLeft_bind (l' : Option Nat) {next : Unit → Program (EngineCell α) β}
    (hnext : Triple (nodeAt address entry l' r height * other) (next ()) post) :
    Triple (nodeAt address entry l r height * other) (setLeft (some address) l' >>= next) post := by
  rw [setLeft, bind_assoc]
  exact loadNode_bind (store_bind rfl hnext)

theorem setRight_bind (r' : Option Nat) {next : Unit → Program (EngineCell α) β}
    (hnext : Triple (nodeAt address entry l r' height * other) (next ()) post) :
    Triple (nodeAt address entry l r height * other)
      (setRight (some address) r' >>= next) post := by
  rw [setRight, bind_assoc]
  exact loadNode_bind (store_bind rfl hnext)

theorem getHeight_bind {next : Nat → Program (EngineCell α) β}
    (hnext : Triple (treeAt pointer tree * other) (next tree.height) post) :
    Triple (treeAt pointer tree * other) (getHeight pointer >>= next) post := by
  cases tree with
  | nil =>
      apply know (p := pointer = none) fun _ hpart => (fact_mul_apply.mp hpart).1
      rintro rfl
      exact hnext
  | node entry left right height =>
      refine open_node fun address l r hpointer => ?_
      subst hpointer
      rw [getHeight, bind_assoc]
      exact loadNode_bind (close_node hnext)

/-- Heights of the two children of a node. -/
theorem getHeights_bind {next : Nat → Nat → Program (EngineCell α) β}
    (hnext : Triple (nodeAt address entry l r height * (treeAt l left * (treeAt r right * other)))
      (next left.height right.height) post) :
    Triple (nodeAt address entry l r height * (treeAt l left * (treeAt r right * other)))
      (getHeight l >>= fun first => getHeight r >>= fun second => next first second) post := by
  have hleft : nodeAt address entry l r height * (treeAt l left * (treeAt r right * other)) =
      treeAt l left * (nodeAt address entry l r height * (treeAt r right * other)) := by
    ac_rfl
  have hright : treeAt l left * (nodeAt address entry l r height * (treeAt r right * other)) =
      treeAt r right * (nodeAt address entry l r height * (treeAt l left * other)) := by
    ac_rfl
  rw [hleft]
  apply getHeight_bind
  rw [hright]
  apply getHeight_bind
  rwa [← hright, ← hleft]

theorem updateHeight_bind {next : Unit → Program (EngineCell α) β}
    (hnext : Triple (nodeAt address entry l r (max left.height right.height + 1) *
      (treeAt l left * (treeAt r right * other))) (next ()) post) :
    Triple (nodeAt address entry l r height * (treeAt l left * (treeAt r right * other)))
      (updateHeight (some address) >>= next) post := by
  simp only [updateHeight, bind_assoc]
  exact loadNode_bind (getHeights_bind (store_bind rfl hnext))

theorem getBalance_bind {next : Int → Program (EngineCell α) β}
    (hnext : Triple (treeAt pointer tree * other) (next tree.getBalance) post) :
    Triple (treeAt pointer tree * other) (getBalance pointer >>= next) post := by
  cases tree with
  | nil =>
      apply know (p := pointer = none) fun _ hpart => (fact_mul_apply.mp hpart).1
      rintro rfl
      exact hnext
  | node entry left right height =>
      refine open_node fun address l r hpointer => ?_
      subst hpointer
      simp only [getBalance, bind_assoc]
      exact loadNode_bind (getHeights_bind (close_node hnext))

end Rules

/-! ## Rotations -/

theorem rightRotate_spec {pointer : Option Nat} {tree rotated : AVLNode α Nat}
    (hrotate : tree.rightRotate = some rotated) (other : Assertion (EngineCell α)) :
    Triple (treeAt pointer tree * other) (rightRotate pointer) fun result =>
      treeAt result rotated * other := by
  obtain _ | ⟨ey, _ | ⟨ex, xLeft, t2, hx⟩, yRight, hy⟩ := tree
  · cases hrotate
  · cases hrotate
  cases hrotate
  refine open_node fun y x r hpointer => ?_
  subst hpointer
  refine Triple.reorder (treeAt x (.node ex xLeft t2 hx) *
    (nodeAt y ey x r hy * (treeAt r yRight * other))) (by ac_rfl) ?_
  refine open_node fun x' l t hx' => ?_
  subst hx'
  refine Triple.reorder (nodeAt y ey (some x') r hy * (nodeAt x' ex l t hx *
    (treeAt l xLeft * (treeAt t t2 * (treeAt r yRight * other))))) (by ac_rfl) ?_
  apply loadNode_bind
  rw [mul_left_comm]
  apply loadNode_bind
  apply setRight_bind
  rw [mul_left_comm]
  apply setLeft_bind
  refine Triple.reorder (nodeAt y ey t r hy * (treeAt t t2 * (treeAt r yRight *
    (nodeAt x' ex l (some y) hx * (treeAt l xLeft * other))))) (by ac_rfl) ?_
  apply updateHeight_bind
  apply close_node
  refine Triple.reorder (nodeAt x' ex l (some y) hx * (treeAt l xLeft *
    (treeAt (some y) (.node ey t2 yRight (max t2.height yRight.height + 1)) * other)))
    (by ac_rfl) ?_
  apply updateHeight_bind
  apply close_node
  exact Triple.pure fun _ => id

theorem leftRotate_spec {pointer : Option Nat} {tree rotated : AVLNode α Nat}
    (hrotate : tree.leftRotate = some rotated) (other : Assertion (EngineCell α)) :
    Triple (treeAt pointer tree * other) (leftRotate pointer) fun result =>
      treeAt result rotated * other := by
  obtain _ | ⟨ex, xLeft, _ | ⟨ey, t2, yRight, hy⟩, hx⟩ := tree
  · cases hrotate
  · cases hrotate
  cases hrotate
  refine open_node fun x l y hpointer => ?_
  subst hpointer
  refine Triple.reorder (treeAt y (.node ey t2 yRight hy) *
    (nodeAt x ex l y hx * (treeAt l xLeft * other))) (by ac_rfl) ?_
  refine open_node fun y' t r hy' => ?_
  subst hy'
  refine Triple.reorder (nodeAt x ex l (some y') hx * (nodeAt y' ey t r hy *
    (treeAt l xLeft * (treeAt t t2 * (treeAt r yRight * other))))) (by ac_rfl) ?_
  apply loadNode_bind
  rw [mul_left_comm]
  apply loadNode_bind
  apply setLeft_bind
  rw [mul_left_comm]
  apply setRight_bind
  refine Triple.reorder (nodeAt x ex l t hx * (treeAt l xLeft * (treeAt t t2 *
    (nodeAt y' ey (some x) r hy * (treeAt r yRight * other))))) (by ac_rfl) ?_
  apply updateHeight_bind
  apply close_node
  refine Triple.reorder (nodeAt y' ey (some x) r hy *
    (treeAt (some x) (.node ex xLeft t2 (max xLeft.height t2.height + 1)) *
      (treeAt r yRight * other))) (by ac_rfl) ?_
  apply updateHeight_bind
  apply close_node
  exact Triple.pure fun _ => id

/-- A double rotation when the left child leans right. -/
theorem leftRightRotate_spec {pointer : Option Nat} {entry : Entry α Nat} {height : Nat}
    {left left' right rotated : AVLNode α Nat} (hleft : left.leftRotate = some left')
    (hrotate : AVLNode.rightRotate (.node entry left' right height) = some rotated)
    (other : Assertion (EngineCell α)) :
    Triple (treeAt pointer (.node entry left right height) * other) (leftRightRotate pointer)
      fun result => treeAt result rotated * other := by
  refine open_node fun address l r hpointer => ?_
  subst hpointer
  apply loadNode_bind
  refine Triple.reorder (treeAt l left * (nodeAt address entry l r height *
    (treeAt r right * other))) (by ac_rfl) ?_
  refine (leftRotate_spec hleft _).bind fun l' => ?_
  rw [mul_left_comm]
  apply setLeft_bind
  apply close_node
  exact rightRotate_spec hrotate other

/-- A double rotation when the right child leans left. -/
theorem rightLeftRotate_spec {pointer : Option Nat} {entry : Entry α Nat} {height : Nat}
    {left right right' rotated : AVLNode α Nat} (hright : right.rightRotate = some right')
    (hrotate : AVLNode.leftRotate (.node entry left right' height) = some rotated)
    (other : Assertion (EngineCell α)) :
    Triple (treeAt pointer (.node entry left right height) * other) (rightLeftRotate pointer)
      fun result => treeAt result rotated * other := by
  refine open_node fun address l r hpointer => ?_
  subst hpointer
  apply loadNode_bind
  refine Triple.reorder (treeAt r right * (nodeAt address entry l r height *
    (treeAt l left * other))) (by ac_rfl) ?_
  refine (rightRotate_spec hright _).bind fun r' => ?_
  refine Triple.reorder (nodeAt address entry l r height *
    (treeAt l left * (treeAt r' right' * other))) (by ac_rfl) ?_
  apply setRight_bind
  apply close_node
  exact leftRotate_spec hrotate other

/-! ## Rebalancing -/

section Rebalancing

variable {pointer l r : Option Nat} {address height : Nat} {entry : Entry α Nat}
  {left right rotated : AVLNode α Nat} {other : Assertion (EngineCell α)}

/-- Looking at the left child of a node. -/
theorem leftBalance_bind {next : Int → Program (EngineCell α) β}
    {post : β → Assertion (EngineCell α)}
    (hnext : Triple (treeAt pointer (.node entry left right height) * other)
      (next left.getBalance) post) :
    Triple (treeAt pointer (.node entry left right height) * other)
      (loadNode pointer >>= fun node => getBalance node.left >>= next) post := by
  refine open_node fun address l r hpointer => ?_
  subst hpointer
  apply loadNode_bind
  refine Triple.reorder (treeAt l left * (nodeAt address entry l r height *
    (treeAt r right * other))) (by ac_rfl) ?_
  apply getBalance_bind
  rw [mul_left_comm]
  exact close_node hnext

/-- Looking at the right child of a node. -/
theorem rightBalance_bind {next : Int → Program (EngineCell α) β}
    {post : β → Assertion (EngineCell α)}
    (hnext : Triple (treeAt pointer (.node entry left right height) * other)
      (next right.getBalance) post) :
    Triple (treeAt pointer (.node entry left right height) * other)
      (loadNode pointer >>= fun node => getBalance node.right >>= next) post := by
  refine open_node fun address l r hpointer => ?_
  subst hpointer
  apply loadNode_bind
  refine Triple.reorder (treeAt r right * (nodeAt address entry l r height *
    (treeAt l left * other))) (by ac_rfl) ?_
  apply getBalance_bind
  refine Triple.reorder (nodeAt address entry l r height *
    (treeAt l left * (treeAt r right * other))) (by ac_rfl) ?_
  exact close_node hnext

theorem rebalanceDelete_spec
    (hrebalance : AVLNode.rebalanceDelete entry left right = some rotated) :
    Triple (nodeAt address entry l r height * (treeAt l left * (treeAt r right * other)))
      (rebalanceDelete (some address)) fun result => treeAt result rotated * other := by
  rw [rebalanceDelete]
  refine updateHeight_bind (close_node (getBalance_bind ?_))
  unfold AVLNode.rebalanceDelete AVLNode.withHeight at hrebalance
  dsimp only at hrebalance
  set balance := AVLNode.getBalance (.node entry left right (max left.height right.height + 1))
  by_cases hleftHigh : balance > 1
  · rw [if_pos hleftHigh] at hrebalance ⊢
    apply leftBalance_bind
    split_ifs at hrebalance ⊢
    · exact rightRotate_spec hrebalance other
    · obtain ⟨left', hleft', hrotate⟩ := Option.bind_eq_some_iff.mp hrebalance
      exact leftRightRotate_spec hleft' hrotate other
  · rw [if_neg hleftHigh] at hrebalance ⊢
    by_cases hrightHigh : balance < -1
    · rw [if_pos hrightHigh] at hrebalance ⊢
      apply rightBalance_bind
      split_ifs at hrebalance ⊢
      · exact leftRotate_spec hrebalance other
      · obtain ⟨right', hright', hrotate⟩ := Option.bind_eq_some_iff.mp hrebalance
        exact rightLeftRotate_spec hright' hrotate other
    · rw [if_neg hrightHigh] at hrebalance ⊢
      cases hrebalance
      exact Triple.pure fun _ => id

/-- Reading the payload of the left child of a node. -/
theorem loadLeft_bind {child : Entry α Nat} {near far : AVLNode α Nat} {childHeight : Nat}
    {next : NodeCell α → Program (EngineCell α) β} {post : β → Assertion (EngineCell α)}
    (hnext : ∀ l r, Triple (treeAt pointer
        (.node entry (.node child near far childHeight) right height) * other)
      (next ⟨child.price, child.timestamp, child.order, l, r, childHeight⟩) post) :
    Triple (treeAt pointer (.node entry (.node child near far childHeight) right height) * other)
      (loadNode pointer >>= fun node => loadNode node.left >>= next) post := by
  refine open_node fun address l r hpointer => ?_
  subst hpointer
  apply loadNode_bind
  refine Triple.reorder (treeAt l (.node child near far childHeight) *
    (nodeAt address entry l r height * (treeAt r right * other))) (by ac_rfl) ?_
  refine open_node fun address' l' r' hl => ?_
  subst hl
  apply loadNode_bind
  apply close_node
  rw [mul_left_comm]
  exact close_node (hnext l' r')

/-- Reading the payload of the right child of a node. -/
theorem loadRight_bind {child : Entry α Nat} {near far : AVLNode α Nat} {childHeight : Nat}
    {next : NodeCell α → Program (EngineCell α) β} {post : β → Assertion (EngineCell α)}
    (hnext : ∀ l r, Triple (treeAt pointer
        (.node entry left (.node child near far childHeight) height) * other)
      (next ⟨child.price, child.timestamp, child.order, l, r, childHeight⟩) post) :
    Triple (treeAt pointer (.node entry left (.node child near far childHeight) height) * other)
      (loadNode pointer >>= fun node => loadNode node.right >>= next) post := by
  refine open_node fun address l r hpointer => ?_
  subst hpointer
  apply loadNode_bind
  refine Triple.reorder (treeAt r (.node child near far childHeight) *
    (nodeAt address entry l r height * (treeAt l left * other))) (by ac_rfl) ?_
  refine open_node fun address' l' r' hr => ?_
  subst hr
  apply loadNode_bind
  apply close_node
  refine Triple.reorder (nodeAt address entry l (some address') height *
    (treeAt l left * (treeAt (some address') (.node child near far childHeight) * other)))
    (by ac_rfl) ?_
  exact close_node (hnext l' r')

theorem rebalanceInsert_spec [LT α] [DecidableLT α] [BEq α] {new : Entry α Nat}
    {isBuyTree : Bool}
    (hrebalance : AVLNode.rebalanceInsert new isBuyTree entry left right = some rotated) :
    Triple (nodeAt address entry l r height * (treeAt l left * (treeAt r right * other)))
      (rebalanceInsert new isBuyTree (some address)) fun result =>
        treeAt result rotated * other := by
  rw [rebalanceInsert]
  refine updateHeight_bind (close_node (getBalance_bind ?_))
  unfold AVLNode.rebalanceInsert AVLNode.withHeight at hrebalance
  dsimp only at hrebalance
  set balance := AVLNode.getBalance (.node entry left right (max left.height right.height + 1))
  by_cases hleftHigh : balance > 1
  · rw [if_pos hleftHigh] at hrebalance ⊢
    cases left with
    | nil => cases hrebalance
    | node child near far childHeight =>
        refine loadLeft_bind fun _ _ => ?_
        dsimp only at hrebalance ⊢
        split_ifs at hrebalance ⊢
        · exact rightRotate_spec hrebalance other
        · obtain ⟨left', hleft', hrotate⟩ := Option.bind_eq_some_iff.mp hrebalance
          exact leftRightRotate_spec hleft' hrotate other
        · cases hrebalance
          exact Triple.pure fun _ => id
  · rw [if_neg hleftHigh] at hrebalance ⊢
    by_cases hrightHigh : balance < -1
    · rw [if_pos hrightHigh] at hrebalance ⊢
      cases right with
      | nil => cases hrebalance
      | node child near far childHeight =>
          refine loadRight_bind fun _ _ => ?_
          dsimp only at hrebalance ⊢
          split_ifs at hrebalance ⊢
          · exact leftRotate_spec hrebalance other
          · obtain ⟨right', hright', hrotate⟩ := Option.bind_eq_some_iff.mp hrebalance
            exact rightLeftRotate_spec hright' hrotate other
          · cases hrebalance
            exact Triple.pure fun _ => id
    · rw [if_neg hrightHigh] at hrebalance ⊢
      cases hrebalance
      exact Triple.pure fun _ => id

end Rebalancing

end QuantTrading.TreeMemory
