import QuantTrading.Engine.AvlTree
import QuantTrading.Foundation.KeyedList
import QuantTrading.Foundation.Transition
import Mathlib.Data.Prod.Lex

/-! # The AVL tree is a finite map

When prices are linearly ordered, `compare_nodes` is the lexicographic order on
price and timestamp, for buy and sell trees alike. A tree built by insertions and
deletions then refines the finite map of its keys: its in-order list ascends, and
each operation acts on that list as on a map.
-/

namespace QuantTrading

open AVLNode KeyedList

variable {α ι : Type*} [LinearOrder α]

/-- The key of an entry, ordered by price and then by timestamp. -/
def Entry.key (entry : Entry α ι) : α ×ₗ Int :=
  toLex (entry.price, entry.timestamp)

namespace AVLNode

theorem compareNodes_neg_iff {price₁ price₂ : α} {timestamp₁ timestamp₂ : Int}
    {isBuyTree : Bool} :
    compareNodes price₁ timestamp₁ price₂ timestamp₂ isBuyTree < 0 ↔
      toLex (price₁, timestamp₁) < toLex (price₂, timestamp₂) := by
  rw [Prod.Lex.toLex_lt_toLex]
  unfold compareNodes
  rcases lt_trichotomy price₁ price₂ with hlt | rfl | hgt
  · simp [hlt, hlt.ne, hlt.asymm]
  · simp only [bne_self_eq_false, Bool.false_eq_true, if_false, lt_irrefl, false_or, true_and]
    split_ifs <;> simp_all
  · simp [hgt, hgt.ne', hgt.asymm]

theorem compareNodes_pos_iff {price₁ price₂ : α} {timestamp₁ timestamp₂ : Int}
    {isBuyTree : Bool} :
    compareNodes price₁ timestamp₁ price₂ timestamp₂ isBuyTree > 0 ↔
      toLex (price₂, timestamp₂) < toLex (price₁, timestamp₁) := by
  rw [Prod.Lex.toLex_lt_toLex]
  unfold compareNodes
  rcases lt_trichotomy price₁ price₂ with hlt | rfl | hgt
  · simp [hlt, hlt.ne, hlt.ne', hlt.asymm]
  · simp only [bne_self_eq_false, Bool.false_eq_true, if_false, lt_irrefl, false_or, true_and]
    split_ifs with hlt hgt
    · simp [hlt.le]
    · simpa using hgt
    · simpa using hgt
  · simp [hgt, hgt.ne, hgt.ne', hgt.asymm]

theorem compareNodes_eq_zero_iff_key {price₁ price₂ : α} {timestamp₁ timestamp₂ : Int}
    {isBuyTree : Bool} :
    compareNodes price₁ timestamp₁ price₂ timestamp₂ isBuyTree = 0 ↔
      toLex (price₁, timestamp₁) = toLex (price₂, timestamp₂) := by
  rw [compareNodes_eq_zero_iff, beq_iff_eq, toLex_inj, Prod.mk.injEq]

/-- Insertion into an ordered tree is insertion into the map. -/
theorem insertNode_toList {new : Entry α ι} {isBuyTree : Bool} {node root : AVLNode α ι}
    (hasc : Ascending Entry.key node.toList) (hroot : insertNode new isBuyTree node = some root) :
    root.toList = insertKey Entry.key new node.toList := by
  induction node generalizing root with
  | nil =>
      cases hroot
      rfl
  | node entry left right height ihLeft ihRight =>
      rw [HeightTree.toList_node] at hasc ⊢
      rcases insertNode_node_cases hroot with
        ⟨hless, left', hleft', hlist⟩ | ⟨hgreater, right', hright', hlist⟩ | ⟨hzero, hlist⟩
      · have hkey : new.key < entry.key := compareNodes_neg_iff.mp hless
        rw [hlist, ihLeft hasc.left hleft', insertKey_append_of_lt hkey]
      · rw [hlist, ihRight hasc.right.tail hright',
          insertKey_append_of_gt hasc (compareNodes_pos_iff.mp hgreater)]
      · have hkey : entry.key = new.key := (compareNodes_eq_zero_iff_key.mp hzero).symm
        rw [hlist, insertKey_eq_self hasc (by simp) hkey]

/-- Deletion from an ordered tree is erasure from the map. The successor copied
up and then deleted on the right leaves the right list as it was. -/
theorem deleteNode_toList {isBuyTree : Bool} {node root : AVLNode α ι} {price : α}
    {timestamp : Int} (hasc : Ascending Entry.key node.toList)
    (hroot : deleteNode isBuyTree node price timestamp = some root) :
    root.toList = eraseKey Entry.key (toLex (price, timestamp)) node.toList := by
  induction node generalizing price timestamp root with
  | nil =>
      cases hroot
      rfl
  | node entry left right height ihLeft ihRight =>
      rw [HeightTree.toList_node] at hasc ⊢
      rcases deleteNode_node_cases hroot with ⟨hless, left', hleft', hlist⟩ |
        ⟨hgreater, right', hright', hlist⟩ |
        ⟨hzero, hlist | ⟨successor, right', hhead, hright', hlist⟩⟩
      · rw [hlist, ihLeft hasc.left hleft',
          eraseKey_append_of_lt hasc (compareNodes_neg_iff.mp hless)]
      · rw [hlist, ihRight hasc.right.tail hright',
          eraseKey_append_of_gt hasc (compareNodes_pos_iff.mp hgreater)]
      · have hkey : toLex (price, timestamp) = entry.key := compareNodes_eq_zero_iff_key.mp hzero
        rw [hlist, hkey, eraseKey_append_self hasc]
      · have hkey : toLex (price, timestamp) = entry.key := compareNodes_eq_zero_iff_key.mp hzero
        have hright : Ascending Entry.key right.toList := hasc.right.tail
        obtain ⟨rest, hrest⟩ : ∃ rest, right.toList = successor :: rest :=
          List.head?_eq_some_iff.mp hhead
        have herase : right'.toList = rest := by
          rw [ihRight hright hright', hrest]
          have hsplit : Ascending Entry.key ([] ++ successor :: rest) := hrest ▸ hright
          exact eraseKey_append_self hsplit
        rw [hlist, hkey, eraseKey_append_self hasc, herase, hrest]

end AVLNode

namespace AVLTree

/-- The in-order keys of the tree strictly ascend. -/
def Sorted (tree : AVLTree α ι) : Prop :=
  Ascending Entry.key tree.entries

theorem insert_entries {tree : AVLTree α ι} (hsorted : tree.Sorted) (price : α)
    (timestamp : Int) (order : ι) :
    (tree.insert price timestamp order).entries =
      insertKey Entry.key ⟨price, timestamp, order⟩ tree.entries :=
  insertNode_toList hsorted (tree.insertNode_eq_some price timestamp order)

theorem deleteOrder_entries {tree : AVLTree α ι} (hsorted : tree.Sorted) (price : α)
    (timestamp : Int) :
    (tree.deleteOrder price timestamp).entries =
      eraseKey Entry.key (toLex (price, timestamp)) tree.entries :=
  deleteNode_toList hsorted (tree.deleteNode_eq_some price timestamp)

theorem create_sorted (isBuyTree : Bool) : (create isBuyTree : AVLTree α ι).Sorted :=
  List.Pairwise.nil

theorem insert_sorted {tree : AVLTree α ι} (hsorted : tree.Sorted) (price : α)
    (timestamp : Int) (order : ι) : (tree.insert price timestamp order).Sorted := by
  rw [Sorted, insert_entries hsorted]
  exact ascending_insertKey hsorted

theorem deleteOrder_sorted {tree : AVLTree α ι} (hsorted : tree.Sorted) (price : α)
    (timestamp : Int) : (tree.deleteOrder price timestamp).Sorted := by
  rw [Sorted, deleteOrder_entries hsorted]
  exact ascending_eraseKey hsorted

end AVLTree

/-! ## Runs of tree operations -/

/-- A call of `avl_insert` or `avl_delete_order`. -/
inductive TreeOp (α ι : Type*) where
  | insert (price : α) (timestamp : Int) (order : ι) : TreeOp α ι
  | delete (price : α) (timestamp : Int) : TreeOp α ι

/-- Perform the call on the root; `none` when it would dereference `NULL`. -/
def AVLNode.perform (isBuyTree : Bool) (root : AVLNode α ι) : TreeOp α ι → Option (AVLNode α ι)
  | .insert price timestamp order => insertNode ⟨price, timestamp, order⟩ isBuyTree root
  | .delete price timestamp => deleteNode isBuyTree root price timestamp

/-- Perform the call on a tree. -/
def AVLTree.perform (tree : AVLTree α ι) : TreeOp α ι → AVLTree α ι
  | .insert price timestamp order => tree.insert price timestamp order
  | .delete price timestamp => tree.deleteOrder price timestamp

namespace AVLTree

@[simp] theorem perform_isBuyTree (tree : AVLTree α ι) (op : TreeOp α ι) :
    (tree.perform op).isBuyTree = tree.isBuyTree := by
  cases op <;> rfl

theorem perform_root (tree : AVLTree α ι) (op : TreeOp α ι) :
    tree.root.perform tree.isBuyTree op = some (tree.perform op).root := by
  cases op with
  | insert price timestamp order => exact tree.insertNode_eq_some price timestamp order
  | delete price timestamp => exact tree.deleteNode_eq_some price timestamp

theorem perform_sorted (tree : AVLTree α ι) (op : TreeOp α ι) (hsorted : tree.Sorted) :
    (tree.perform op).Sorted := by
  cases op with
  | insert price timestamp order => exact insert_sorted hsorted price timestamp order
  | delete price timestamp => exact deleteOrder_sorted hsorted price timestamp

/-- The calls on the root never fail, and compute the root of the tree's run. -/
theorem run_perform_root (tree : AVLTree α ι) (ops : List (TreeOp α ι)) :
    ops.foldlM (AVLNode.perform tree.isBuyTree) tree.root =
      some (Transition.run perform tree ops).root := by
  induction ops generalizing tree with
  | nil => rfl
  | cons op rest ih =>
      have hrest := ih (tree.perform op)
      rw [perform_isBuyTree] at hrest
      rw [List.foldlM_cons, perform_root, Transition.run_cons]
      exact hrest

/-- Every run of insertions and deletions from an empty tree of either kind
succeeds: no rotation meets a missing child. The tree it reaches is strictly
ordered by `compare_nodes`, caches exact heights, is balanced at every node and
has at least the size of the Fibonacci tree of its height. -/
theorem run_avl_invariant (isBuyTree : Bool) (ops : List (TreeOp α ι)) :
    ∃ root : AVLNode α ι, ops.foldlM (AVLNode.perform isBuyTree) .nil = some root ∧
      root.toList.Pairwise (fun first second => compareNodes first.price first.timestamp
        second.price second.timestamp isBuyTree < 0) ∧
      root.Balanced ∧ Nat.fib (root.height + 2) - 1 ≤ root.size := by
  let tree : AVLTree α ι := Transition.run perform (create isBuyTree) ops
  have hsorted : tree.Sorted :=
    Transition.run_invariant perform Sorted perform_sorted (create_sorted isBuyTree) ops
  refine ⟨tree.root, run_perform_root (create isBuyTree) ops, ?_, tree.balanced, ?_⟩
  · exact hsorted.imp fun hlt => compareNodes_neg_iff.mpr hlt
  · have hfib := tree.balanced.fib_le_size
    omega

/-- A tree reached by insertions and deletions is a sorted finite map: insertion
and deletion act on the in-order list as on a map with the keys ordered by
`compare_nodes`, traversal visits the list once from left to right, and the two
extremal queries read its ends. -/
theorem run_refines_map {σ : Type*} (isBuyTree : Bool) (ops : List (TreeOp α ι)) (price : α)
    (timestamp : Int) (order : ι) (callback : ι → σ → σ) (userData : σ) :
    let tree : AVLTree α ι := Transition.run perform (create isBuyTree) ops
    let cmp := fun first second : Entry α ι => compareNodes first.price first.timestamp
      second.price second.timestamp isBuyTree
    let new : Entry α ι := ⟨price, timestamp, order⟩
    ((∃ entry ∈ tree.entries, cmp new entry = 0) →
        (tree.insert price timestamp order).entries = tree.entries) ∧
    ((∀ entry ∈ tree.entries, cmp new entry ≠ 0) →
        ∃ before after, tree.entries = before ++ after ∧
          (tree.insert price timestamp order).entries = before ++ new :: after ∧
          (∀ entry ∈ before, cmp entry new < 0) ∧ ∀ entry ∈ after, cmp new entry < 0) ∧
    (∀ entry ∈ tree.entries, cmp new entry = 0 →
        ∃ before after, tree.entries = before ++ entry :: after ∧
          (tree.deleteOrder price timestamp).entries = before ++ after) ∧
    ((∀ entry ∈ tree.entries, cmp new entry ≠ 0) →
        (tree.deleteOrder price timestamp).entries = tree.entries) ∧
    tree.inorderTraverse callback userData =
      tree.entries.foldl (fun data entry => callback entry.order data) userData ∧
    tree.entries.Pairwise (fun first second => cmp first second < 0) ∧
    tree.findMin = tree.entries.head?.map Entry.order ∧
    tree.findMax = tree.entries.getLast?.map Entry.order ∧
    (tree.findMin = none ↔ tree.entries = []) ∧ (tree.findMax = none ↔ tree.entries = []) := by
  intro tree cmp new
  have hsorted : tree.Sorted :=
    Transition.run_invariant perform Sorted perform_sorted (create_sorted isBuyTree) ops
  have hkey : ∀ {entry}, cmp new entry = 0 → entry.key = toLex (price, timestamp) :=
    fun hzero => (compareNodes_eq_zero_iff_key.mp hzero).symm
  have hkeyNe : ∀ {entry : Entry α ι}, cmp new entry ≠ 0 → entry.key ≠ toLex (price, timestamp) :=
    fun hne heq => hne (compareNodes_eq_zero_iff_key.mpr heq.symm)
  refine ⟨?_, ?_, ?_, ?_, ?_, ?_, ?_, ?_, ?_, ?_⟩
  · rintro ⟨entry, hentry, hzero⟩
    rw [insert_entries hsorted]
    exact insertKey_eq_self hsorted hentry (hkey hzero)
  · intro hne
    obtain ⟨before, after, hlist, hinsert, hbefore, hafter⟩ :=
      insertKey_eq_append (x := new) hsorted fun entry hentry => hkeyNe (hne entry hentry)
    refine ⟨before, after, hlist, by rw [insert_entries hsorted, hinsert], ?_, ?_⟩
    · exact fun entry hentry => compareNodes_neg_iff.mpr (hbefore entry hentry)
    · exact fun entry hentry => compareNodes_neg_iff.mpr (hafter entry hentry)
  · intro entry hentry hzero
    obtain ⟨before, after, hlist⟩ := List.append_of_mem hentry
    have hsplit : Ascending Entry.key (before ++ entry :: after) := hlist ▸ hsorted
    refine ⟨before, after, hlist, ?_⟩
    rw [deleteOrder_entries hsorted, hlist, ← hkey hzero, eraseKey_append_self hsplit]
  · intro hne
    rw [deleteOrder_entries hsorted]
    exact eraseKey_eq_self fun entry hentry => hkeyNe (hne entry hentry)
  · rw [inorderTraverse_eq, orders, List.foldl_map]
  · exact hsorted.imp fun hlt => compareNodes_neg_iff.mpr hlt
  · rw [findMin_eq, orders, List.head?_map]
  · rw [findMax_eq, orders, List.getLast?_map]
  · rw [findMin_eq, List.head?_eq_none_iff, orders, List.map_eq_nil_iff]
  · rw [findMax_eq, List.getLast?_eq_none_iff, orders, List.map_eq_nil_iff]

end AVLTree

end QuantTrading
