import QuantTrading.Engine.AvlBalance

/-! # The AVL tree of one side of a book

The public functions of `avl_tree.c`. A tree carries the proof that it is
balanced, so `avl_insert` and `avl_delete_order` are total: the node functions
underneath never dereference a missing child. The second half says which entries
the two operations keep, for prices compared in any way at all.
-/

namespace QuantTrading

/-- `struct AVLTree`, kept balanced by its own operations. -/
structure AVLTree (α ι : Type*) where
  root : AVLNode α ι
  isBuyTree : Bool
  balanced : root.Balanced

namespace AVLTree

open AVLNode

variable {α ι : Type*}

/-- `avl_create`. -/
def create (isBuyTree : Bool) : AVLTree α ι where
  root := .nil
  isBuyTree := isBuyTree
  balanced := trivial

/-- `avl_is_empty`. -/
def isEmpty (tree : AVLTree α ι) : Bool :=
  match tree.root with
  | .nil => true
  | .node _ _ _ _ => false

/-- `avl_find_min`. -/
def findMin (tree : AVLTree α ι) : Option ι :=
  tree.root.findMinNode.map Entry.order

/-- `avl_find_max`. -/
def findMax (tree : AVLTree α ι) : Option ι :=
  tree.root.findMaxNode.map Entry.order

/-- `avl_inorder_traverse`. -/
def inorderTraverse {σ : Type*} (tree : AVLTree α ι) (callback : ι → σ → σ) (userData : σ) : σ :=
  tree.root.inorderTraverse callback userData

/-- The entries of the tree in in-order sequence. -/
def entries (tree : AVLTree α ι) : List (Entry α ι) :=
  tree.root.toList

/-- The orders the tree points to, in in-order sequence. -/
def orders (tree : AVLTree α ι) : List ι :=
  tree.entries.map Entry.order

@[simp] theorem create_entries (isBuyTree : Bool) :
    (create isBuyTree : AVLTree α ι).entries = [] := rfl

theorem mem_orders {tree : AVLTree α ι} {order : ι} :
    order ∈ tree.orders ↔ ∃ entry ∈ tree.entries, entry.order = order :=
  List.mem_map

theorem isEmpty_iff (tree : AVLTree α ι) : tree.isEmpty = true ↔ tree.entries = [] := by
  unfold isEmpty entries
  cases tree.root with
  | nil => simp
  | node entry left right height => simp

theorem findMin_eq (tree : AVLTree α ι) : tree.findMin = tree.orders.head? := by
  rw [findMin, findMinNode_eq_head?, orders, entries, List.head?_map]

theorem findMax_eq (tree : AVLTree α ι) : tree.findMax = tree.orders.getLast? := by
  rw [findMax, findMaxNode_eq_getLast?, orders, entries, List.getLast?_map]

/-- Traversal calls the callback once per entry, in in-order sequence. -/
theorem inorderTraverse_eq {σ : Type*} (tree : AVLTree α ι) (callback : ι → σ → σ)
    (userData : σ) :
    tree.inorderTraverse callback userData =
      tree.orders.foldl (fun data order => callback order data) userData := by
  unfold inorderTraverse orders entries
  induction tree.root generalizing userData with
  | nil => rfl
  | node entry left right height ihLeft ihRight =>
      simp only [AVLNode.inorderTraverse, HeightTree.toList_node, List.map_append,
        List.map_cons, List.foldl_append, List.foldl_cons, ihLeft, ihRight]

section Search

variable [LT α] [DecidableLT α] [BEq α]

theorem insertNode_isSome {node : AVLNode α ι} (new : Entry α ι) (isBuyTree : Bool)
    (hnode : node.Balanced) : (insertNode new isBuyTree node).isSome := by
  obtain ⟨root, hroot, _⟩ := insertNode_balanced new isBuyTree node hnode
  simp [hroot]

theorem deleteNode_isSome {node : AVLNode α ι} (isBuyTree : Bool) (price : α)
    (timestamp : Int) (hnode : node.Balanced) :
    (deleteNode isBuyTree node price timestamp).isSome := by
  obtain ⟨root, hroot, _⟩ := deleteNode_balanced isBuyTree node price timestamp hnode
  simp [hroot]

/-- `avl_insert`. -/
def insert (tree : AVLTree α ι) (price : α) (timestamp : Int) (order : ι) : AVLTree α ι where
  root := (insertNode ⟨price, timestamp, order⟩ tree.isBuyTree tree.root).get
    (insertNode_isSome _ _ tree.balanced)
  isBuyTree := tree.isBuyTree
  balanced := by
    obtain ⟨root, hroot, hbal, _⟩ := insertNode_balanced ⟨price, timestamp, order⟩
      tree.isBuyTree tree.root tree.balanced
    simpa [hroot] using hbal

/-- `avl_delete_order`. -/
def deleteOrder (tree : AVLTree α ι) (price : α) (timestamp : Int) : AVLTree α ι where
  root := (deleteNode tree.isBuyTree tree.root price timestamp).get
    (deleteNode_isSome _ _ _ tree.balanced)
  isBuyTree := tree.isBuyTree
  balanced := by
    obtain ⟨root, hroot, hbal, _⟩ := deleteNode_balanced tree.isBuyTree tree.root price
      timestamp tree.balanced
    simpa [hroot] using hbal

@[simp] theorem insert_isBuyTree (tree : AVLTree α ι) (price : α) (timestamp : Int) (order : ι) :
    (tree.insert price timestamp order).isBuyTree = tree.isBuyTree := rfl

@[simp] theorem deleteOrder_isBuyTree (tree : AVLTree α ι) (price : α) (timestamp : Int) :
    (tree.deleteOrder price timestamp).isBuyTree = tree.isBuyTree := rfl

theorem insertNode_eq_some (tree : AVLTree α ι) (price : α) (timestamp : Int) (order : ι) :
    insertNode ⟨price, timestamp, order⟩ tree.isBuyTree tree.root =
      some (tree.insert price timestamp order).root := by
  simp [insert]

theorem deleteNode_eq_some (tree : AVLTree α ι) (price : α) (timestamp : Int) :
    deleteNode tree.isBuyTree tree.root price timestamp =
      some (tree.deleteOrder price timestamp).root := by
  simp [deleteOrder]

end Search

end AVLTree

end QuantTrading
