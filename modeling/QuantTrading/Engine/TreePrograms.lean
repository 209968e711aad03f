import QuantTrading.Foundation.SeparationLogic
import QuantTrading.Engine.OrderBook

/-! # The AVL tree as a program on memory

The functions of `avl_tree.c` again, on cells that hold the addresses of their
children: nodes are allocated, rewritten in place and freed. A recursive function or
a loop takes the depth it may reach; it goes wrong beyond it, and wherever the source
would dereference a null pointer or a cell that was freed. `AVLNode` is what these
programs compute.
-/

namespace QuantTrading

open Separation Separation.Program

/-- `struct AVLNode`, with the addresses of its children. -/
structure NodeCell (α : Type) where
  price : α
  timestamp : Int
  order : Nat
  left : Option Nat
  right : Option Nat
  height : Nat
deriving DecidableEq, Repr

/-- What an address of the engine's memory holds. -/
inductive EngineCell (α : Type) where
  | node (cell : NodeCell α)
  | tree (root : Option Nat) (isBuyTree : Bool)
  | book (buyOrders sellOrders : Option Nat) (broadcaster : Option TradeBroadcaster)
  | order (record : Order α)
deriving DecidableEq, Repr

namespace TreeMemory

variable {α : Type}

/-! ## Fields of a node -/

/-- The node a pointer points to. -/
def loadNode (pointer : Option Nat) : Program (EngineCell α) (NodeCell α) := do
  match ← load pointer with
  | .node cell => return cell
  | _ => fault

/-- `node->left = left`. -/
def setLeft (pointer left : Option Nat) : Program (EngineCell α) Unit := do
  let node ← loadNode pointer
  store pointer (.node { node with left := left })

/-- `node->right = right`. -/
def setRight (pointer right : Option Nat) : Program (EngineCell α) Unit := do
  let node ← loadNode pointer
  store pointer (.node { node with right := right })

/-- `get_height`. -/
def getHeight (pointer : Option Nat) : Program (EngineCell α) Nat :=
  match pointer with
  | none => return 0
  | some address => do
      let node ← loadNode (some address)
      return node.height

/-- `get_balance`. -/
def getBalance (pointer : Option Nat) : Program (EngineCell α) Int :=
  match pointer with
  | none => return 0
  | some address => do
      let node ← loadNode (some address)
      let left ← getHeight node.left
      let right ← getHeight node.right
      return (left : Int) - (right : Int)

/-- `node->height = max(get_height(node->left), get_height(node->right)) + 1`. -/
def updateHeight (pointer : Option Nat) : Program (EngineCell α) Unit := do
  let node ← loadNode pointer
  let left ← getHeight node.left
  let right ← getHeight node.right
  store pointer (.node { node with height := max left right + 1 })

/-! ## Nodes -/

/-- `create_node`. -/
def createNode (allocator : Allocator (EngineCell α)) (new : Entry α Nat) :
    Program (EngineCell α) (Option Nat) :=
  allocate allocator (.node ⟨new.price, new.timestamp, new.order, none, none, 1⟩)

/-- `right_rotate`. -/
def rightRotate (y : Option Nat) : Program (EngineCell α) (Option Nat) := do
  let x := (← loadNode y).left
  let t2 := (← loadNode x).right
  setRight x y
  setLeft y t2
  updateHeight y
  updateHeight x
  return x

/-- `left_rotate`. -/
def leftRotate (x : Option Nat) : Program (EngineCell α) (Option Nat) := do
  let y := (← loadNode x).right
  let t2 := (← loadNode y).left
  setLeft y x
  setRight x t2
  updateHeight x
  updateHeight y
  return y

/-- `find_min_node`: the leftmost node, at most `depth` steps down. -/
def findMinNode (depth : Nat) (pointer : Option Nat) : Program (EngineCell α) (Option Nat) :=
  match depth, pointer with
  | _, none => return none
  | 0, some _ => fault
  | depth + 1, some address => do
      let node ← loadNode (some address)
      match node.left with
      | none => return some address
      | some left => findMinNode depth (some left)

/-- `find_max_node`. -/
def findMaxNode (depth : Nat) (pointer : Option Nat) : Program (EngineCell α) (Option Nat) :=
  match depth, pointer with
  | _, none => return none
  | 0, some _ => fault
  | depth + 1, some address => do
      let node ← loadNode (some address)
      match node.right with
      | none => return some address
      | some right => findMaxNode depth (some right)

/-- `node->left = left_rotate(node->left)`, then `right_rotate(node)`. -/
def leftRightRotate (node : Option Nat) : Program (EngineCell α) (Option Nat) := do
  let left ← leftRotate (← loadNode node).left
  setLeft node left
  rightRotate node

/-- `node->right = right_rotate(node->right)`, then `left_rotate(node)`. -/
def rightLeftRotate (node : Option Nat) : Program (EngineCell α) (Option Nat) := do
  let right ← rightRotate (← loadNode node).right
  setRight node right
  leftRotate node

/-- The end of `delete_node`, from the height update on. -/
def rebalanceDelete (root : Option Nat) : Program (EngineCell α) (Option Nat) := do
  updateHeight root
  let balance ← getBalance root
  if balance > 1 then do
    let lean ← getBalance (← loadNode root).left
    if lean ≥ 0 then rightRotate root else leftRightRotate root
  else if balance < -1 then do
    let lean ← getBalance (← loadNode root).right
    if lean ≤ 0 then leftRotate root else rightLeftRotate root
  else return root

/-- `destroy_node`. -/
def destroyNode (depth : Nat) (pointer : Option Nat) : Program (EngineCell α) Unit :=
  match depth, pointer with
  | _, none => return ()
  | 0, some _ => fault
  | depth + 1, some address => do
      destroyNode depth (← loadNode (some address)).left
      destroyNode depth (← loadNode (some address)).right
      free (some address)

/-- `inorder_traverse_helper`, with the callback acting on the user data. -/
def inorderTraverse {σ : Type} (callback : Nat → σ → Program (EngineCell α) σ) (depth : Nat)
    (pointer : Option Nat) (userData : σ) : Program (EngineCell α) σ :=
  match depth, pointer with
  | _, none => return userData
  | 0, some _ => fault
  | depth + 1, some address => do
      let node ← loadNode (some address)
      let userData ← inorderTraverse callback depth node.left userData
      let userData ← callback node.order userData
      inorderTraverse callback depth (← loadNode (some address)).right userData

section Search

variable [LT α] [DecidableLT α] [BEq α]

/-- The end of `insert_node`, from the height update on. -/
def rebalanceInsert (new : Entry α Nat) (isBuyTree : Bool) (node : Option Nat) :
    Program (EngineCell α) (Option Nat) := do
  updateHeight node
  let balance ← getBalance node
  if balance > 1 then do
    let child ← loadNode (← loadNode node).left
    let cmp := AVLNode.compareNodes new.price new.timestamp child.price child.timestamp isBuyTree
    if cmp < 0 then rightRotate node else if cmp > 0 then leftRightRotate node else return node
  else if balance < -1 then do
    let child ← loadNode (← loadNode node).right
    let cmp := AVLNode.compareNodes new.price new.timestamp child.price child.timestamp isBuyTree
    if cmp > 0 then leftRotate node else if cmp < 0 then rightLeftRotate node else return node
  else return node

/-- `insert_node`. -/
def insertNode (allocator : Allocator (EngineCell α)) (new : Entry α Nat) (isBuyTree : Bool)
    (depth : Nat) (pointer : Option Nat) : Program (EngineCell α) (Option Nat) :=
  match depth, pointer with
  | 0, _ => fault
  | _ + 1, none => createNode allocator new
  | depth + 1, some address => do
      let node ← loadNode (some address)
      let cmp := AVLNode.compareNodes new.price new.timestamp node.price node.timestamp isBuyTree
      if cmp < 0 then do
        let left ← insertNode allocator new isBuyTree depth node.left
        setLeft (some address) left
        rebalanceInsert new isBuyTree (some address)
      else if cmp > 0 then do
        let right ← insertNode allocator new isBuyTree depth node.right
        setRight (some address) right
        rebalanceInsert new isBuyTree (some address)
      else return some address

/-- `delete_node`. -/
def deleteNode (isBuyTree : Bool) (depth : Nat) (pointer : Option Nat) (price : α)
    (timestamp : Int) : Program (EngineCell α) (Option Nat) :=
  match depth, pointer with
  | _, none => return none
  | 0, some _ => fault
  | depth + 1, some address => do
      let root ← loadNode (some address)
      let cmp := AVLNode.compareNodes price timestamp root.price root.timestamp isBuyTree
      if cmp < 0 then do
        let left ← deleteNode isBuyTree depth root.left price timestamp
        setLeft (some address) left
        rebalanceDelete (some address)
      else if cmp > 0 then do
        let right ← deleteNode isBuyTree depth root.right price timestamp
        setRight (some address) right
        rebalanceDelete (some address)
      else
        match root.left, root.right with
        | none, none => do
            free (some address)
            return none
        -- one child: `*root = *temp`, and the child's own cell is freed
        | some child, none | none, some child => do
            store (some address) (.node (← loadNode (some child)))
            free (some child)
            rebalanceDelete (some address)
        -- two children: the successor's data are copied up, then its node deleted
        | some _, some right => do
            let temp ← findMinNode depth (some right)
            let successor ← loadNode temp
            store (some address) (.node { root with
              price := successor.price
              timestamp := successor.timestamp
              order := successor.order })
            let right ← deleteNode isBuyTree depth (some right) successor.price
              successor.timestamp
            setRight (some address) right
            rebalanceDelete (some address)

/-! ## Trees -/

/-- The fields of the tree a pointer points to. -/
def loadTree (pointer : Option Nat) : Program (EngineCell α) (Option Nat × Bool) := do
  match ← load pointer with
  | .tree root isBuyTree => return (root, isBuyTree)
  | _ => fault

/-- `avl_insert`. -/
def avlInsert (allocator : Allocator (EngineCell α)) (depth : Nat) (tree : Option Nat) (price : α)
    (timestamp : Int) (order : Nat) : Program (EngineCell α) Unit :=
  match tree with
  | none => return ()
  | some tree => do
      let (root, isBuyTree) ← loadTree (some tree)
      let root ← insertNode allocator ⟨price, timestamp, order⟩ isBuyTree depth root
      store (some tree) (.tree root isBuyTree)

/-- `avl_delete_order`. -/
def avlDeleteOrder (depth : Nat) (tree : Option Nat) (price : α) (timestamp : Int) :
    Program (EngineCell α) Unit :=
  match tree with
  | none => return ()
  | some tree => do
      let (root, isBuyTree) ← loadTree (some tree)
      let root ← deleteNode isBuyTree depth root price timestamp
      store (some tree) (.tree root isBuyTree)

end Search

/-- `avl_create`. -/
def avlCreate (allocator : Allocator (EngineCell α)) (isBuyTree : Bool) :
    Program (EngineCell α) (Option Nat) :=
  allocate allocator (.tree none isBuyTree)

/-- `avl_destroy`. -/
def avlDestroy (depth : Nat) (tree : Option Nat) : Program (EngineCell α) Unit :=
  match tree with
  | none => return ()
  | some tree => do
      let (root, isBuyTree) ← loadTree (some tree)
      match root with
      | none => pure ()
      | some root => do
          destroyNode depth (some root)
          store (some tree) (.tree none isBuyTree)
      free (some tree)

/-- `avl_is_empty`. -/
def avlIsEmpty (tree : Option Nat) : Program (EngineCell α) Bool :=
  match tree with
  | none => return true
  | some tree => do
      let (root, _) ← loadTree (some tree)
      return root.isNone

/-- `avl_find_min`: the order of the leftmost node. -/
def avlFindMin (depth : Nat) (tree : Option Nat) : Program (EngineCell α) (Option Nat) :=
  match tree with
  | none => return none
  | some tree => do
      let (root, _) ← loadTree (some tree)
      match ← findMinNode depth root with
      | none => return none
      | some node => return some (← loadNode (some node)).order

/-- `avl_find_max`: the order of the rightmost node. -/
def avlFindMax (depth : Nat) (tree : Option Nat) : Program (EngineCell α) (Option Nat) :=
  match tree with
  | none => return none
  | some tree => do
      let (root, _) ← loadTree (some tree)
      match ← findMaxNode depth root with
      | none => return none
      | some node => return some (← loadNode (some node)).order

/-- `avl_inorder_traverse`. -/
def avlInorderTraverse {σ : Type} (callback : Nat → σ → Program (EngineCell α) σ) (depth : Nat)
    (tree : Option Nat) (userData : σ) : Program (EngineCell α) σ :=
  match tree with
  | none => return userData
  | some tree => do
      let (root, _) ← loadTree (some tree)
      inorderTraverse callback depth root userData

end TreeMemory

end QuantTrading
