import QuantTrading.Engine.AvlNode

/-! # Entries of the AVL tree

What the node functions do to the in-order list. Rotations keep it; insertion and
deletion act on it in one case per branch of the source, stated once below. The
later proofs about entries start from those cases and never unfold the functions
again. Nothing here assumes the comparison to be an order.
-/

namespace QuantTrading.AVLNode

open HeightTree

variable {α ι : Type*}

@[simp] theorem withHeight_toList (entry : Entry α ι) (left right : AVLNode α ι) :
    (withHeight entry left right).toList = left.toList ++ entry :: right.toList := rfl

theorem rightRotate_toList {node root : AVLNode α ι} (hrotate : rightRotate node = some root) :
    root.toList = node.toList := by
  unfold rightRotate at hrotate
  split at hrotate
  · cases hrotate
    simp
  · cases hrotate

theorem leftRotate_toList {node root : AVLNode α ι} (hrotate : leftRotate node = some root) :
    root.toList = node.toList := by
  unfold leftRotate at hrotate
  split at hrotate
  · cases hrotate
    simp
  · cases hrotate

theorem findMinNode_eq_head? (node : AVLNode α ι) : findMinNode node = node.toList.head? := by
  fun_induction findMinNode node with
  | case1 => rfl
  | case2 entry right height => rfl
  | case3 outer right outerHeight entry left inner height ih =>
      rw [ih]
      simp

theorem findMaxNode_eq_getLast? (node : AVLNode α ι) :
    findMaxNode node = node.toList.getLast? := by
  fun_induction findMaxNode node with
  | case1 => rfl
  | case2 entry left height => simp
  | case3 outer left entry inner right height outerHeight ih =>
      rw [ih]
      simp [List.getLast?_append, List.getLast?_cons]

theorem rebalanceDelete_toList {entry : Entry α ι} {left right root : AVLNode α ι}
    (hroot : rebalanceDelete entry left right = some root) :
    root.toList = left.toList ++ entry :: right.toList := by
  unfold rebalanceDelete at hroot
  dsimp only at hroot
  split_ifs at hroot
  · rw [rightRotate_toList hroot, withHeight_toList]
  · obtain ⟨left', hleft, hroot⟩ := Option.bind_eq_some_iff.mp hroot
    rw [rightRotate_toList hroot, toList_node, leftRotate_toList hleft]
  · rw [leftRotate_toList hroot, withHeight_toList]
  · obtain ⟨right', hright, hroot⟩ := Option.bind_eq_some_iff.mp hroot
    rw [leftRotate_toList hroot, toList_node, rightRotate_toList hright]
  · cases hroot
    rfl

section Search

variable [LT α] [DecidableLT α] [BEq α]

theorem rebalanceInsert_toList {new entry : Entry α ι} {isBuyTree : Bool}
    {left right root : AVLNode α ι}
    (hroot : rebalanceInsert new isBuyTree entry left right = some root) :
    root.toList = left.toList ++ entry :: right.toList := by
  unfold rebalanceInsert at hroot
  dsimp only at hroot
  split_ifs at hroot
  · cases left with
    | nil => cases hroot
    | node child outer inner childHeight =>
        dsimp only at hroot
        split_ifs at hroot
        · rw [rightRotate_toList hroot, withHeight_toList]
        · obtain ⟨left', hleft, hroot⟩ := Option.bind_eq_some_iff.mp hroot
          rw [rightRotate_toList hroot, toList_node, leftRotate_toList hleft]
        · cases hroot
          rfl
  · cases right with
    | nil => cases hroot
    | node child inner outer childHeight =>
        dsimp only at hroot
        split_ifs at hroot
        · rw [leftRotate_toList hroot, withHeight_toList]
        · obtain ⟨right', hright, hroot⟩ := Option.bind_eq_some_iff.mp hroot
          rw [leftRotate_toList hroot, toList_node, rightRotate_toList hright]
        · cases hroot
          rfl
  · cases hroot
    rfl

theorem insertNode_node_cases {new entry : Entry α ι} {isBuyTree : Bool}
    {left right root : AVLNode α ι} {height : Nat}
    (hroot : insertNode new isBuyTree (.node entry left right height) = some root) :
    (compareNodes new.price new.timestamp entry.price entry.timestamp isBuyTree < 0 ∧
      ∃ left', insertNode new isBuyTree left = some left' ∧
        root.toList = left'.toList ++ entry :: right.toList) ∨
    (compareNodes new.price new.timestamp entry.price entry.timestamp isBuyTree > 0 ∧
      ∃ right', insertNode new isBuyTree right = some right' ∧
        root.toList = left.toList ++ entry :: right'.toList) ∨
    (compareNodes new.price new.timestamp entry.price entry.timestamp isBuyTree = 0 ∧
      root.toList = left.toList ++ entry :: right.toList) := by
  unfold insertNode at hroot
  dsimp only at hroot
  split_ifs at hroot with hless hgreater
  · obtain ⟨left', hleft', hroot⟩ := Option.bind_eq_some_iff.mp hroot
    exact Or.inl ⟨hless, left', hleft', rebalanceInsert_toList hroot⟩
  · obtain ⟨right', hright', hroot⟩ := Option.bind_eq_some_iff.mp hroot
    exact Or.inr (Or.inl ⟨hgreater, right', hright', rebalanceInsert_toList hroot⟩)
  · cases hroot
    exact Or.inr (Or.inr ⟨by omega, rfl⟩)

theorem deleteNode_node_cases {entry : Entry α ι} {isBuyTree : Bool} {price : α}
    {timestamp : Int} {left right root : AVLNode α ι} {height : Nat}
    (hroot : deleteNode isBuyTree (.node entry left right height) price timestamp = some root) :
    (compareNodes price timestamp entry.price entry.timestamp isBuyTree < 0 ∧
      ∃ left', deleteNode isBuyTree left price timestamp = some left' ∧
        root.toList = left'.toList ++ entry :: right.toList) ∨
    (compareNodes price timestamp entry.price entry.timestamp isBuyTree > 0 ∧
      ∃ right', deleteNode isBuyTree right price timestamp = some right' ∧
        root.toList = left.toList ++ entry :: right'.toList) ∨
    (compareNodes price timestamp entry.price entry.timestamp isBuyTree = 0 ∧
      (root.toList = left.toList ++ right.toList ∨
        ∃ successor right', right.toList.head? = some successor ∧
          deleteNode isBuyTree right successor.price successor.timestamp = some right' ∧
          root.toList = left.toList ++ successor :: right'.toList)) := by
  unfold deleteNode at hroot
  dsimp only at hroot
  split_ifs at hroot with hless hgreater
  · obtain ⟨left', hleft', hroot⟩ := Option.bind_eq_some_iff.mp hroot
    exact Or.inl ⟨hless, left', hleft', rebalanceDelete_toList hroot⟩
  · obtain ⟨right', hright', hroot⟩ := Option.bind_eq_some_iff.mp hroot
    exact Or.inr (Or.inl ⟨hgreater, right', hright', rebalanceDelete_toList hroot⟩)
  · refine Or.inr (Or.inr ⟨by omega, ?_⟩)
    split at hroot
    · cases hroot
      exact Or.inl rfl
    · exact Or.inl (by simpa using rebalanceDelete_toList hroot)
    · exact Or.inl (by simpa using rebalanceDelete_toList hroot)
    · obtain ⟨successor, hsuccessor, hroot⟩ := Option.bind_eq_some_iff.mp hroot
      obtain ⟨right', hright', hroot⟩ := Option.bind_eq_some_iff.mp hroot
      exact Or.inr ⟨successor, right', by rw [← hsuccessor, findMinNode_eq_head?], hright',
        rebalanceDelete_toList hroot⟩

/-- Keys compare equal exactly when their prices are equal in the sense of C and
their timestamps agree, for either kind of tree. -/
theorem compareNodes_eq_zero_iff {price₁ price₂ : α} {timestamp₁ timestamp₂ : Int}
    {isBuyTree : Bool} :
    compareNodes price₁ timestamp₁ price₂ timestamp₂ isBuyTree = 0 ↔
      (price₁ == price₂) = true ∧ timestamp₁ = timestamp₂ := by
  unfold compareNodes
  by_cases hprice : (price₁ == price₂) = true
  · have hne : (price₁ != price₂) = false := by simp [bne, hprice]
    simp only [hne, Bool.false_eq_true, if_false, hprice, true_and]
    split_ifs with hlt hgt
    · simpa using hlt.ne
    · simpa using hgt.ne'
    · simp only [true_iff]
      omega
  · have hne : (price₁ != price₂) = true := by simp [bne, hprice]
    simp only [hne, if_true]
    split_ifs <;> simp [hprice]

/-- Insertion adds one entry somewhere, or meets an entry it takes for the same
key and keeps the list. -/
theorem insertNode_toList_cases {new : Entry α ι} {isBuyTree : Bool} {node root : AVLNode α ι}
    (hroot : insertNode new isBuyTree node = some root) :
    (root.toList = node.toList ∧ ∃ entry ∈ node.toList,
      compareNodes new.price new.timestamp entry.price entry.timestamp isBuyTree = 0) ∨
    ∃ first second, node.toList = first ++ second ∧ root.toList = first ++ new :: second := by
  induction node generalizing root with
  | nil =>
      cases hroot
      exact Or.inr ⟨[], [], rfl, rfl⟩
  | node entry left right height ihLeft ihRight =>
      rcases insertNode_node_cases hroot with
        ⟨_, left', hleft', hlist⟩ | ⟨_, right', hright', hlist⟩ | ⟨hzero, hlist⟩
      · rcases ihLeft hleft' with ⟨hsame, clash, hclash, hcmp⟩ | ⟨first, second, hold, hnew⟩
        · exact Or.inl ⟨by rw [hlist, hsame]; rfl, clash, by simp [hclash], hcmp⟩
        · exact Or.inr ⟨first, second ++ entry :: right.toList, by simp [hold],
            by simp [hlist, hnew]⟩
      · rcases ihRight hright' with ⟨hsame, clash, hclash, hcmp⟩ | ⟨first, second, hold, hnew⟩
        · exact Or.inl ⟨by rw [hlist, hsame]; rfl, clash, by simp [hclash], hcmp⟩
        · exact Or.inr ⟨left.toList ++ entry :: first, second, by simp [hold],
            by simp [hlist, hnew]⟩
      · exact Or.inl ⟨hlist, entry, by simp, hzero⟩

/-- Deletion creates no entry. -/
theorem mem_of_mem_deleteNode {isBuyTree : Bool} {node root : AVLNode α ι} {price : α}
    {timestamp : Int} (hroot : deleteNode isBuyTree node price timestamp = some root)
    {entry : Entry α ι} (hentry : entry ∈ root.toList) : entry ∈ node.toList := by
  induction node generalizing price timestamp root with
  | nil =>
      cases hroot
      exact hentry
  | node top left right height ihLeft ihRight =>
      rw [HeightTree.toList_node, List.mem_append, List.mem_cons]
      rcases deleteNode_node_cases hroot with ⟨_, left', hleft', hlist⟩ |
        ⟨_, right', hright', hlist⟩ | ⟨_, hlist | ⟨successor, right', hhead, hright', hlist⟩⟩ <;>
        rw [hlist, List.mem_append] at hentry
      · exact hentry.imp (ihLeft hleft') List.mem_cons.mp
      · exact hentry.imp_right fun hmem => (List.mem_cons.mp hmem).imp_right (ihRight hright')
      · exact hentry.imp_right Or.inr
      · refine hentry.imp_right fun hmem => Or.inr ?_
        rcases List.mem_cons.mp hmem with rfl | hmem
        · exact List.mem_of_mem_head? hhead
        · exact ihRight hright' hmem

/-- Deletion drops no order whose key it does not take for the deleted one,
provided the comparison tells different orders of the tree apart. The proviso is
for the successor, whose key is deleted from the right subtree in turn. -/
theorem exists_mem_deleteNode {isBuyTree : Bool} {node root : AVLNode α ι} {price : α}
    {timestamp : Int} (hroot : deleteNode isBuyTree node price timestamp = some root)
    (hdistinct : ∀ first ∈ node.toList, ∀ second ∈ node.toList, first.order ≠ second.order →
      compareNodes first.price first.timestamp second.price second.timestamp isBuyTree ≠ 0)
    {entry : Entry α ι} (hentry : entry ∈ node.toList)
    (hkeep : ∀ other ∈ node.toList, other.order = entry.order →
      compareNodes price timestamp other.price other.timestamp isBuyTree ≠ 0) :
    ∃ kept ∈ root.toList, kept.order = entry.order := by
  induction node generalizing price timestamp root with
  | nil => simp at hentry
  | node top left right height ihLeft ihRight =>
      simp only [HeightTree.toList_node, List.mem_append, List.mem_cons] at hentry hdistinct hkeep
      rcases deleteNode_node_cases hroot with ⟨_, left', hleft', hlist⟩ |
        ⟨_, right', hright', hlist⟩ |
        ⟨hzero, hlist | ⟨successor, right', hhead, hright', hlist⟩⟩ <;>
        simp only [hlist, List.mem_append, List.mem_cons]
      · rcases hentry with hmem | hmem
        · obtain ⟨kept, hkept, horder⟩ := ihLeft hleft'
            (fun first hfirst second hsecond =>
              hdistinct first (Or.inl hfirst) second (Or.inl hsecond)) hmem
            (fun other hother => hkeep other (Or.inl hother))
          exact ⟨kept, Or.inl hkept, horder⟩
        · exact ⟨entry, Or.inr hmem, rfl⟩
      · rcases hentry with hmem | rfl | hmem
        · exact ⟨entry, Or.inl hmem, rfl⟩
        · exact ⟨entry, Or.inr (Or.inl rfl), rfl⟩
        · obtain ⟨kept, hkept, horder⟩ := ihRight hright'
            (fun first hfirst second hsecond =>
              hdistinct first (Or.inr (Or.inr hfirst)) second (Or.inr (Or.inr hsecond))) hmem
            (fun other hother => hkeep other (Or.inr (Or.inr hother)))
          exact ⟨kept, Or.inr (Or.inr hkept), horder⟩
      · rcases hentry with hmem | rfl | hmem
        · exact ⟨entry, Or.inl hmem, rfl⟩
        · exact absurd hzero (hkeep entry (Or.inr (Or.inl rfl)) rfl)
        · exact ⟨entry, Or.inr hmem, rfl⟩
      · rcases hentry with hmem | rfl | hmem
        · exact ⟨entry, Or.inl hmem, rfl⟩
        · exact absurd hzero (hkeep entry (Or.inr (Or.inl rfl)) rfl)
        · by_cases hsame : successor.order = entry.order
          · exact ⟨successor, Or.inr (Or.inl rfl), hsame⟩
          · -- the second deletion takes the successor's key out of the right subtree
            have hsuccessor := List.mem_of_mem_head? hhead
            obtain ⟨kept, hkept, horder⟩ := ihRight hright'
              (fun first hfirst second hsecond =>
                hdistinct first (Or.inr (Or.inr hfirst)) second (Or.inr (Or.inr hsecond))) hmem
              (fun other hother heq => hdistinct successor (Or.inr (Or.inr hsuccessor)) other
                (Or.inr (Or.inr hother)) (fun h => hsame (h.trans heq)))
            exact ⟨kept, Or.inr (Or.inr hkept), horder⟩

end Search

end QuantTrading.AVLNode
