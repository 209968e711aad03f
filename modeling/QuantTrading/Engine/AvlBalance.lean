import QuantTrading.Engine.AvlEntries

/-! # Insertion and deletion keep the tree balanced

Whatever the comparison answers, `insert_node` and `delete_node` return a
balanced tree when given one: rotations are chosen along the path the comparison
itself selected, so nothing here needs the keys to be ordered, or even a price
to equal itself. In particular no child is dereferenced that is missing.
-/

namespace QuantTrading.AVLNode

open HeightTree

variable {α ι : Type*}

/-! ## Rotations -/

@[simp] theorem withHeight_height (entry : Entry α ι) (left right : AVLNode α ι) :
    (withHeight entry left right).height = max left.height right.height + 1 := rfl

@[simp] theorem withHeight_balanced (entry : Entry α ι) (left right : AVLNode α ι) :
    (withHeight entry left right).Balanced ↔
      left.height ≤ right.height + 1 ∧ right.height ≤ left.height + 1 ∧
        left.Balanced ∧ right.Balanced := by
  simp [withHeight]

@[simp] theorem getBalance_node (entry : Entry α ι) (left right : AVLNode α ι) (height : Nat) :
    getBalance (.node entry left right height) = (left.height : Int) - right.height := rfl

@[simp] theorem getBalance_withHeight (entry : Entry α ι) (left right : AVLNode α ι) :
    getBalance (withHeight entry left right) = (left.height : Int) - right.height := rfl

/-- A single right rotation when the left child is too high and leans left, or is
even. -/
theorem rightRotate_of_left_high (entry child : Entry α ι) (height childHeight : Nat)
    {outer inner right : AVLNode α ι} (houter : outer.Balanced) (hinner : inner.Balanced)
    (hright : right.Balanced) (hhigh : outer.height = right.height + 1)
    (hlean : inner.height ≤ outer.height) (hclose : outer.height ≤ inner.height + 1) :
    ∃ root, rightRotate (.node entry (.node child outer inner childHeight) right height) =
        some root ∧ root.Balanced ∧ root.height = inner.height + 2 := by
  refine ⟨_, rfl, ?_, ?_⟩
  · simp only [withHeight_balanced, withHeight_height]
    exact ⟨by omega, by omega, houter, by omega, by omega, hinner, hright⟩
  · simp only [withHeight_height]
    omega

/-- A single left rotation when the right child is too high and leans right, or is
even. -/
theorem leftRotate_of_right_high (entry child : Entry α ι) (height childHeight : Nat)
    {left inner outer : AVLNode α ι} (hleft : left.Balanced) (hinner : inner.Balanced)
    (houter : outer.Balanced) (hhigh : outer.height = left.height + 1)
    (hlean : inner.height ≤ outer.height) (hclose : outer.height ≤ inner.height + 1) :
    ∃ root, leftRotate (.node entry left (.node child inner outer childHeight) height) =
        some root ∧ root.Balanced ∧ root.height = inner.height + 2 := by
  refine ⟨_, rfl, ?_, ?_⟩
  · simp only [withHeight_balanced, withHeight_height]
    exact ⟨by omega, by omega, ⟨by omega, by omega, hleft, hinner⟩, houter⟩
  · simp only [withHeight_height]
    omega

/-- The double rotation when the left child is too high and leans right. -/
theorem doubleRotate_of_left_high (entry child : Entry α ι) (height childHeight : Nat)
    {outer inner right : AVLNode α ι} (houter : outer.Balanced) (hinner : inner.Balanced)
    (hright : right.Balanced) (hhigh : inner.height = right.height + 1)
    (hlean : inner.height = outer.height + 1) :
    ∃ left' root, leftRotate (.node child outer inner childHeight) = some left' ∧
      rightRotate (.node entry left' right height) = some root ∧ root.Balanced ∧
        root.height = right.height + 2 := by
  obtain ⟨value, near, far, innerHeight, rfl⟩ :=
    exists_node_of_height_pos (show 0 < inner.height by omega)
  obtain ⟨hinnerHeight, hnear, hfar, hnearBalanced, hfarBalanced⟩ := hinner
  simp only [height_node] at hhigh hlean
  refine ⟨_, _, rfl, rfl, ?_, ?_⟩
  · simp only [withHeight_balanced, withHeight_height]
    exact ⟨by omega, by omega, ⟨by omega, by omega, houter, hnearBalanced⟩,
      by omega, by omega, hfarBalanced, hright⟩
  · simp only [withHeight_height]
    omega

/-- The double rotation when the right child is too high and leans left. -/
theorem doubleRotate_of_right_high (entry child : Entry α ι) (height childHeight : Nat)
    {left inner outer : AVLNode α ι} (hleft : left.Balanced) (hinner : inner.Balanced)
    (houter : outer.Balanced) (hhigh : inner.height = left.height + 1)
    (hlean : inner.height = outer.height + 1) :
    ∃ right' root, rightRotate (.node child inner outer childHeight) = some right' ∧
      leftRotate (.node entry left right' height) = some root ∧ root.Balanced ∧
        root.height = left.height + 2 := by
  obtain ⟨value, near, far, innerHeight, rfl⟩ :=
    exists_node_of_height_pos (show 0 < inner.height by omega)
  obtain ⟨hinnerHeight, hnear, hfar, hnearBalanced, hfarBalanced⟩ := hinner
  simp only [height_node] at hhigh hlean
  refine ⟨_, _, rfl, rfl, ?_, ?_⟩
  · simp only [withHeight_balanced, withHeight_height]
    exact ⟨by omega, by omega, ⟨by omega, by omega, hleft, hnearBalanced⟩,
      by omega, by omega, hfarBalanced, houter⟩
  · simp only [withHeight_height]
    omega

/-! ## Deletion -/

/-- Rebalancing two balanced children whose heights differ by at most two
succeeds, and loses a level at most when they differ by two. -/
theorem rebalanceDelete_balanced (entry : Entry α ι) {left right : AVLNode α ι}
    (hleft : left.Balanced) (hright : right.Balanced)
    (hleftHigh : left.height ≤ right.height + 2) (hrightHigh : right.height ≤ left.height + 2) :
    ∃ root, rebalanceDelete entry left right = some root ∧ root.Balanced ∧
      root.height ≤ max left.height right.height + 1 ∧
      max left.height right.height ≤ root.height ∧
      (left.height ≤ right.height + 1 → right.height ≤ left.height + 1 →
        root.height = max left.height right.height + 1) := by
  unfold rebalanceDelete
  dsimp only
  rw [getBalance_withHeight]
  by_cases hhighLeft : (left.height : Int) - right.height > 1
  · rw [if_pos hhighLeft]
    obtain ⟨child, outer, inner, childHeight, rfl⟩ :=
      exists_node_of_height_pos (show 0 < left.height by omega)
    obtain ⟨hchild, hin, hout, houter, hinner⟩ := hleft
    simp only [height_node] at *
    rw [getBalance_node]
    by_cases hlean : (outer.height : Int) - inner.height ≥ 0
    · rw [if_pos hlean]
      obtain ⟨root, hroot, hbal, hheight⟩ := rightRotate_of_left_high
        entry child (max childHeight right.height + 1) childHeight
        houter hinner hright (by omega) (by omega) (by omega)
      exact ⟨root, hroot, hbal, by omega, by omega, by omega⟩
    · rw [if_neg hlean]
      obtain ⟨left', root, hleft', hroot, hbal, hheight⟩ := doubleRotate_of_left_high
        entry child (max childHeight right.height + 1) childHeight
        houter hinner hright (by omega) (by omega)
      exact ⟨root, Option.bind_eq_some_iff.mpr ⟨left', hleft', hroot⟩, hbal,
        by omega, by omega, by omega⟩
  · rw [if_neg hhighLeft]
    by_cases hhighRight : (left.height : Int) - right.height < -1
    · rw [if_pos hhighRight]
      obtain ⟨child, inner, outer, childHeight, rfl⟩ :=
        exists_node_of_height_pos (show 0 < right.height by omega)
      obtain ⟨hchild, hin, hout, hinner, houter⟩ := hright
      simp only [height_node] at *
      rw [getBalance_node]
      by_cases hlean : (inner.height : Int) - outer.height ≤ 0
      · rw [if_pos hlean]
        obtain ⟨root, hroot, hbal, hheight⟩ := leftRotate_of_right_high
          entry child (max left.height childHeight + 1) childHeight
          hleft hinner houter (by omega) (by omega) (by omega)
        exact ⟨root, hroot, hbal, by omega, by omega, by omega⟩
      · rw [if_neg hlean]
        obtain ⟨right', root, hright', hroot, hbal, hheight⟩ := doubleRotate_of_right_high
          entry child (max left.height childHeight + 1) childHeight
          hleft hinner houter (by omega) (by omega)
        exact ⟨root, Option.bind_eq_some_iff.mpr ⟨right', hright', hroot⟩, hbal,
          by omega, by omega, by omega⟩
    · rw [if_neg hhighRight]
      refine ⟨_, rfl, ?_, le_rfl, Nat.le_succ _, fun _ _ => rfl⟩
      rw [withHeight_balanced]
      exact ⟨by omega, by omega, hleft, hright⟩

section Search

variable [LT α] [DecidableLT α] [BEq α]

/-- `delete_node` on a balanced tree succeeds, keeps it balanced and loses at
most one level. -/
theorem deleteNode_balanced (isBuyTree : Bool) (node : AVLNode α ι) (price : α)
    (timestamp : Int) (hnode : node.Balanced) :
    ∃ root, deleteNode isBuyTree node price timestamp = some root ∧ root.Balanced ∧
      root.height ≤ node.height ∧ node.height ≤ root.height + 1 := by
  induction node generalizing price timestamp with
  | nil => exact ⟨.nil, rfl, trivial, le_rfl, Nat.zero_le _⟩
  | node entry left right height ihLeft ihRight =>
      obtain ⟨hheight, hleftClose, hrightClose, hleft, hright⟩ := hnode
      unfold deleteNode
      dsimp only
      simp only [height_node]
      -- in each case one side loses at most a level, so the sides differ by two at most
      split_ifs
      · obtain ⟨left', hleft', hbal, hle, hge⟩ := ihLeft price timestamp hleft
        obtain ⟨root, hroot, hrootBal, hupper, hlower, hexact⟩ :=
          rebalanceDelete_balanced entry hbal hright (by omega) (by omega)
        exact ⟨root, Option.bind_eq_some_iff.mpr ⟨left', hleft', hroot⟩, hrootBal,
          by omega, by omega⟩
      · obtain ⟨right', hright', hbal, hle, hge⟩ := ihRight price timestamp hright
        obtain ⟨root, hroot, hrootBal, hupper, hlower, hexact⟩ :=
          rebalanceDelete_balanced entry hleft hbal (by omega) (by omega)
        exact ⟨root, Option.bind_eq_some_iff.mpr ⟨right', hright', hroot⟩, hrootBal,
          by omega, by omega⟩
      · split
        · exact ⟨.nil, rfl, trivial, Nat.zero_le _, by simp_all⟩
        next child childLeft childRight childHeight =>
          obtain ⟨hchild, hcl, hcr, hchildLeft, hchildRight⟩ := hleft
          obtain ⟨root, hroot, hrootBal, hupper, hlower, hexact⟩ :=
            rebalanceDelete_balanced child hchildLeft hchildRight (by omega) (by omega)
          simp only [height_node, height_nil] at *
          exact ⟨root, hroot, hrootBal, by omega, by omega⟩
        next child childLeft childRight childHeight =>
          obtain ⟨hchild, hcl, hcr, hchildLeft, hchildRight⟩ := hright
          obtain ⟨root, hroot, hrootBal, hupper, hlower, hexact⟩ :=
            rebalanceDelete_balanced child hchildLeft hchildRight (by omega) (by omega)
          simp only [height_node, height_nil] at *
          exact ⟨root, hroot, hrootBal, by omega, by omega⟩
        next hneither hleftOnly hrightOnly =>
          obtain ⟨successor, hsuccessor⟩ : ∃ successor, findMinNode right = some successor := by
            rw [findMinNode_eq_head?]
            cases right with
            | nil =>
                cases left with
                | nil => exact absurd rfl (hneither rfl)
                | node child childLeft childRight childHeight =>
                    exact absurd rfl (hleftOnly child childLeft childRight childHeight rfl)
            | node child childLeft childRight childHeight =>
                exact ⟨_, List.head?_eq_some_head (by simp)⟩
          obtain ⟨right', hright', hbal, hle, hge⟩ :=
            ihRight successor.price successor.timestamp hright
          obtain ⟨root, hroot, hrootBal, hupper, hlower, hexact⟩ :=
            rebalanceDelete_balanced successor hleft hbal (by omega) (by omega)
          refine ⟨root, ?_, hrootBal, by omega, by omega⟩
          exact Option.bind_eq_some_iff.mpr
            ⟨successor, hsuccessor, Option.bind_eq_some_iff.mpr ⟨right', hright', hroot⟩⟩

/-! ## Insertion -/

/-- The comparison at the root points to the side that has just grown. -/
def LeansToward (new : Entry α ι) (isBuyTree : Bool) : AVLNode α ι → Prop
  | .nil => False
  | .node entry left right _ =>
      let cmp := compareNodes new.price new.timestamp entry.price entry.timestamp isBuyTree
      (left.height = 0 ∧ right.height = 0) ∨
        (cmp < 0 ∧ left.height = right.height + 1) ∨ (cmp > 0 ∧ right.height = left.height + 1)

theorem rebalanceInsert_of_close (new entry : Entry α ι) (isBuyTree : Bool)
    {left right : AVLNode α ι} (hleft : left.height ≤ right.height + 1)
    (hright : right.height ≤ left.height + 1) :
    rebalanceInsert new isBuyTree entry left right = some (withHeight entry left right) := by
  unfold rebalanceInsert
  dsimp only
  rw [getBalance_withHeight, if_neg (by omega), if_neg (by omega)]

/-- After an insertion on the left that made the left side too high, rotating
restores the balance at the height the tree had before. -/
theorem rebalanceInsert_of_left_high (entry : Entry α ι) {new : Entry α ι} {isBuyTree : Bool}
    {left right : AVLNode α ι} (hleft : left.Balanced) (hright : right.Balanced)
    (hlean : LeansToward new isBuyTree left) (hhigh : left.height = right.height + 2) :
    ∃ root, rebalanceInsert new isBuyTree entry left right = some root ∧ root.Balanced ∧
      root.height = right.height + 2 := by
  cases left with
  | nil => exact absurd hlean id
  | node child outer inner childHeight =>
      obtain ⟨hchild, hin, hout, houter, hinner⟩ := hleft
      simp only [height_node] at hhigh
      unfold rebalanceInsert
      dsimp only
      rw [getBalance_withHeight, height_node, if_pos (by omega)]
      rcases hlean with ⟨hzero, hzero'⟩ | ⟨hcmp, htall⟩ | ⟨hcmp, htall⟩
      · omega
      · rw [if_pos hcmp]
        obtain ⟨root, hroot, hbal, hheight⟩ := rightRotate_of_left_high
          entry child (max childHeight right.height + 1) childHeight
          houter hinner hright (by omega) (by omega) (by omega)
        exact ⟨root, hroot, hbal, by omega⟩
      · rw [if_neg (by omega), if_pos hcmp]
        obtain ⟨left', root, hleft', hroot, hbal, hheight⟩ := doubleRotate_of_left_high
          entry child (max childHeight right.height + 1) childHeight
          houter hinner hright (by omega) (by omega)
        exact ⟨root, Option.bind_eq_some_iff.mpr ⟨left', hleft', hroot⟩, hbal, hheight⟩

/-- The mirror image of `rebalanceInsert_of_left_high`. -/
theorem rebalanceInsert_of_right_high (entry : Entry α ι) {new : Entry α ι} {isBuyTree : Bool}
    {left right : AVLNode α ι} (hleft : left.Balanced) (hright : right.Balanced)
    (hlean : LeansToward new isBuyTree right) (hhigh : right.height = left.height + 2) :
    ∃ root, rebalanceInsert new isBuyTree entry left right = some root ∧ root.Balanced ∧
      root.height = left.height + 2 := by
  cases right with
  | nil => exact absurd hlean id
  | node child inner outer childHeight =>
      obtain ⟨hchild, hin, hout, hinner, houter⟩ := hright
      simp only [height_node] at hhigh
      unfold rebalanceInsert
      dsimp only
      rw [getBalance_withHeight, height_node, if_neg (by omega), if_pos (by omega)]
      rcases hlean with ⟨hzero, hzero'⟩ | ⟨hcmp, htall⟩ | ⟨hcmp, htall⟩
      · omega
      · rw [if_neg (by omega), if_pos hcmp]
        obtain ⟨right', root, hright', hroot, hbal, hheight⟩ := doubleRotate_of_right_high
          entry child (max left.height childHeight + 1) childHeight
          hleft hinner houter (by omega) (by omega)
        exact ⟨root, Option.bind_eq_some_iff.mpr ⟨right', hright', hroot⟩, hbal, hheight⟩
      · rw [if_pos hcmp]
        obtain ⟨root, hroot, hbal, hheight⟩ := leftRotate_of_right_high
          entry child (max left.height childHeight + 1) childHeight
          hleft hinner houter (by omega) (by omega) (by omega)
        exact ⟨root, hroot, hbal, by omega⟩

/-- `insert_node` on a balanced tree succeeds and keeps it balanced. When the
tree gains a level, its root was not rotated and leans toward the new key, which
is what the caller's rotation test reads. -/
theorem insertNode_balanced (new : Entry α ι) (isBuyTree : Bool) (node : AVLNode α ι)
    (hnode : node.Balanced) :
    ∃ root, insertNode new isBuyTree node = some root ∧ root.Balanced ∧
      (root.height = node.height ∨
        root.height = node.height + 1 ∧ LeansToward new isBuyTree root) := by
  induction node with
  | nil => exact ⟨createNode new, rfl, by simp [createNode], Or.inr ⟨rfl, Or.inl ⟨rfl, rfl⟩⟩⟩
  | node entry left right height ihLeft ihRight =>
      obtain ⟨hheight, hleftClose, hrightClose, hleft, hright⟩ := hnode
      unfold insertNode
      dsimp only
      simp only [height_node]
      split_ifs with hless hgreater
      · obtain ⟨left', hleft', hbal, hgrow⟩ := ihLeft hleft
        simp only [hleft', Option.bind_eq_bind, Option.bind_some]
        -- the left side is two higher only when it has just gained its level
        by_cases hhigh : left'.height = right.height + 2
        · obtain ⟨root, hroot, hrootBal, hrootHeight⟩ := rebalanceInsert_of_left_high
            entry hbal hright (hgrow.resolve_left (by omega)).2 hhigh
          exact ⟨root, hroot, hrootBal, by omega⟩
        · rw [rebalanceInsert_of_close new entry isBuyTree (by omega) (by omega)]
          refine ⟨_, rfl, (withHeight_balanced _ _ _).mpr ⟨by omega, by omega, hbal, hright⟩, ?_⟩
          by_cases hsame : (withHeight entry left' right).height = height
          · exact Or.inl hsame
          · rw [withHeight_height] at hsame
            exact Or.inr ⟨by rw [withHeight_height]; omega, Or.inr (Or.inl ⟨hless, by omega⟩)⟩
      · obtain ⟨right', hright', hbal, hgrow⟩ := ihRight hright
        simp only [hright', Option.bind_eq_bind, Option.bind_some]
        by_cases hhigh : right'.height = left.height + 2
        · obtain ⟨root, hroot, hrootBal, hrootHeight⟩ := rebalanceInsert_of_right_high
            entry hleft hbal (hgrow.resolve_left (by omega)).2 hhigh
          exact ⟨root, hroot, hrootBal, by omega⟩
        · rw [rebalanceInsert_of_close new entry isBuyTree (by omega) (by omega)]
          refine ⟨_, rfl, (withHeight_balanced _ _ _).mpr ⟨by omega, by omega, hleft, hbal⟩, ?_⟩
          by_cases hsame : (withHeight entry left right').height = height
          · exact Or.inl hsame
          · rw [withHeight_height] at hsame
            exact Or.inr ⟨by rw [withHeight_height]; omega, Or.inr (Or.inr ⟨hgreater, by omega⟩)⟩
      · exact ⟨_, rfl, ⟨hheight, hleftClose, hrightClose, hleft, hright⟩, Or.inl rfl⟩

end Search

end QuantTrading.AVLNode
