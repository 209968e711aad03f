import QuantTrading.Foundation.HeightTree
import Mathlib.Order.Basic

/-! # Nodes of the AVL tree

The recursive functions of `avl_tree.c` on nodes. A `NULL` node is the empty
tree; a node carries its own copy of the price and timestamp of the order it
points to. Orders live in memory and are named by pointers of an arbitrary
type, so trees share orders the way the source does.

The source dereferences children without checking them in the rotations and in
the rebalancing tests. Such a function returns `none` where it would
dereference `NULL`.
-/

namespace QuantTrading

/-- The payload of `struct AVLNode`: a copy of the order's key and a pointer to
the order. -/
structure Entry (α ι : Type*) where
  price : α
  timestamp : Int
  order : ι
deriving DecidableEq, Repr

/-- `AVLNode*`; `left`, `right` and `height` are those of the tree. -/
abbrev AVLNode (α ι : Type*) := HeightTree (Entry α ι)

namespace AVLNode

variable {α ι : Type*}

/-- `get_balance`. -/
def getBalance : AVLNode α ι → Int
  | .nil => 0
  | .node _ left right _ => (left.height : Int) - (right.height : Int)

/-- `find_min_node`: the payload of the leftmost node. -/
def findMinNode : AVLNode α ι → Option (Entry α ι)
  | .nil => none
  | .node entry .nil _ _ => some entry
  | .node _ (.node entry left right height) _ _ => findMinNode (.node entry left right height)

/-- `find_max_node`: the payload of the rightmost node. -/
def findMaxNode : AVLNode α ι → Option (Entry α ι)
  | .nil => none
  | .node entry _ .nil _ => some entry
  | .node _ _ (.node entry left right height) _ => findMaxNode (.node entry left right height)

/-- `create_node`. -/
def createNode (entry : Entry α ι) : AVLNode α ι :=
  .node entry .nil .nil 1

/-- A node whose height is recomputed from its children. -/
def withHeight (entry : Entry α ι) (left right : AVLNode α ι) : AVLNode α ι :=
  .node entry left right (max left.height right.height + 1)

/-- `right_rotate`. -/
def rightRotate : AVLNode α ι → Option (AVLNode α ι)
  | .node y (.node x xLeft t2 _) yRight _ =>
      some (withHeight x xLeft (withHeight y t2 yRight))
  | _ => none

/-- `left_rotate`. -/
def leftRotate : AVLNode α ι → Option (AVLNode α ι)
  | .node x xLeft (.node y t2 yRight _) _ =>
      some (withHeight y (withHeight x xLeft t2) yRight)
  | _ => none

/-- The end of `delete_node`, from the height update on: the taller child's own
balance selects the rotation. -/
def rebalanceDelete (entry : Entry α ι) (left right : AVLNode α ι) : Option (AVLNode α ι) :=
  let root := withHeight entry left right
  if getBalance root > 1 then
    if getBalance left ≥ 0 then
      rightRotate root
    else do
      let left' ← leftRotate left
      rightRotate (.node entry left' right root.height)
  else if getBalance root < -1 then
    if getBalance right ≤ 0 then
      leftRotate root
    else do
      let right' ← rightRotate right
      leftRotate (.node entry left right' root.height)
  else
    some root

/-- `inorder_traverse_helper`, with the callback acting on the user data. -/
def inorderTraverse {σ : Type*} (callback : ι → σ → σ) : AVLNode α ι → σ → σ
  | .nil, userData => userData
  | .node entry left right _, userData =>
      inorderTraverse callback right (callback entry.order (inorderTraverse callback left userData))

section Search

variable [LT α] [DecidableLT α] [BEq α]

/-- `compare_nodes`. -/
def compareNodes (price₁ : α) (timestamp₁ : Int) (price₂ : α) (timestamp₂ : Int)
    (isBuyTree : Bool) : Int :=
  if price₁ != price₂ then
    if isBuyTree then
      if price₁ > price₂ then 1 else -1
    else
      if price₁ < price₂ then -1 else 1
  else
    if timestamp₁ < timestamp₂ then -1 else if timestamp₁ > timestamp₂ then 1 else 0

/-- The end of `insert_node`, from the height update on: the position of the new
key relative to the taller child selects the rotation. -/
def rebalanceInsert (new : Entry α ι) (isBuyTree : Bool) (entry : Entry α ι)
    (left right : AVLNode α ι) : Option (AVLNode α ι) :=
  let node := withHeight entry left right
  if getBalance node > 1 then
    match left with
    | .nil => none
    | .node child _ _ _ =>
        let cmp := compareNodes new.price new.timestamp child.price child.timestamp isBuyTree
        if cmp < 0 then
          rightRotate node
        else if cmp > 0 then do
          let left' ← leftRotate left
          rightRotate (.node entry left' right node.height)
        else
          some node
  else if getBalance node < -1 then
    match right with
    | .nil => none
    | .node child _ _ _ =>
        let cmp := compareNodes new.price new.timestamp child.price child.timestamp isBuyTree
        if cmp > 0 then
          leftRotate node
        else if cmp < 0 then do
          let right' ← rightRotate right
          leftRotate (.node entry left right' node.height)
        else
          some node
  else
    some node

/-- `insert_node`. -/
def insertNode (new : Entry α ι) (isBuyTree : Bool) : AVLNode α ι → Option (AVLNode α ι)
  | .nil => some (createNode new)
  | .node entry left right height =>
      let cmp := compareNodes new.price new.timestamp entry.price entry.timestamp isBuyTree
      if cmp < 0 then do
        let left' ← insertNode new isBuyTree left
        rebalanceInsert new isBuyTree entry left' right
      else if cmp > 0 then do
        let right' ← insertNode new isBuyTree right
        rebalanceInsert new isBuyTree entry left right'
      else
        -- a duplicate key: the source logs a warning and returns the node as it is
        some (.node entry left right height)

/-- `delete_node`. -/
def deleteNode (isBuyTree : Bool) : AVLNode α ι → α → Int → Option (AVLNode α ι)
  | .nil, _, _ => some .nil
  | .node entry left right _, price, timestamp =>
      let cmp := compareNodes price timestamp entry.price entry.timestamp isBuyTree
      if cmp < 0 then do
        let left' ← deleteNode isBuyTree left price timestamp
        rebalanceDelete entry left' right
      else if cmp > 0 then do
        let right' ← deleteNode isBuyTree right price timestamp
        rebalanceDelete entry left right'
      else
        match left, right with
        | .nil, .nil => some .nil
        -- one child: its contents are copied over the root
        | .node child childLeft childRight _, .nil => rebalanceDelete child childLeft childRight
        | .nil, .node child childLeft childRight _ => rebalanceDelete child childLeft childRight
        -- two children: the successor's payload is copied up, then its node deleted
        | _, _ => do
            let successor ← findMinNode right
            let right' ← deleteNode isBuyTree right successor.price successor.timestamp
            rebalanceDelete successor left right'

end Search

end AVLNode

end QuantTrading
