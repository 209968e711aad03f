import Mathlib.Data.Nat.Fib.Basic

/-! # Binary trees with cached heights

Every node caches the height of the subtree it roots, and readers trust the
cache. A tree is height balanced when each cached height is the real one and
the two subtrees of every node differ by at most one level; such a tree is at
least as large as the Fibonacci tree of its height.
-/

/-- A binary tree whose nodes carry a value and a cached height. -/
inductive HeightTree (β : Type*) where
  | nil : HeightTree β
  | node (value : β) (left right : HeightTree β) (height : Nat) : HeightTree β
deriving DecidableEq, Repr

namespace HeightTree

variable {β : Type*}

/-- The cached height; the empty tree has height zero. -/
def height : HeightTree β → Nat
  | nil => 0
  | node _ _ _ height => height

/-- The number of nodes. -/
def size : HeightTree β → Nat
  | nil => 0
  | node _ left right _ => left.size + right.size + 1

/-- The values in symmetric order. -/
def toList : HeightTree β → List β
  | nil => []
  | node value left right _ => left.toList ++ value :: right.toList

/-- Cached heights are exact and sibling heights differ by at most one. -/
def Balanced : HeightTree β → Prop
  | nil => True
  | node _ left right height =>
      height = max left.height right.height + 1 ∧
        left.height ≤ right.height + 1 ∧ right.height ≤ left.height + 1 ∧
        left.Balanced ∧ right.Balanced

@[simp] theorem height_nil : (nil : HeightTree β).height = 0 := rfl

@[simp] theorem height_node (value : β) (left right : HeightTree β) (height : Nat) :
    (node value left right height).height = height := rfl

@[simp] theorem toList_nil : (nil : HeightTree β).toList = [] := rfl

@[simp] theorem toList_node (value : β) (left right : HeightTree β) (height : Nat) :
    (node value left right height).toList = left.toList ++ value :: right.toList := rfl

@[simp] theorem balanced_nil : (nil : HeightTree β).Balanced := trivial

@[simp] theorem balanced_node (value : β) (left right : HeightTree β) (height : Nat) :
    (node value left right height).Balanced ↔
      height = max left.height right.height + 1 ∧
        left.height ≤ right.height + 1 ∧ right.height ≤ left.height + 1 ∧
        left.Balanced ∧ right.Balanced := Iff.rfl

theorem length_toList (tree : HeightTree β) : tree.toList.length = tree.size := by
  induction tree with
  | nil => rfl
  | node value left right height ihLeft ihRight =>
      simp only [toList_node, List.length_append, List.length_cons, ihLeft, ihRight, size]
      omega

/-- A balanced tree of positive cached height has a root. -/
theorem exists_node_of_height_pos {tree : HeightTree β} (hpos : 0 < tree.height) :
    ∃ value left right height, tree = node value left right height := by
  cases tree with
  | nil => simp at hpos
  | node value left right height => exact ⟨value, left, right, height, rfl⟩

/-- A balanced tree holds at least as many nodes as the Fibonacci tree of its
height, so its height is logarithmic in its size. -/
theorem Balanced.fib_le_size {tree : HeightTree β} (hbal : tree.Balanced) :
    Nat.fib (tree.height + 2) ≤ tree.size + 1 := by
  induction tree with
  | nil => simp [size]
  | node value left right height ihLeft ihRight =>
      obtain ⟨hheight, hleft, hright, hbalLeft, hbalRight⟩ := hbal
      have hfibLeft := ihLeft hbalLeft
      have hfibRight := ihRight hbalRight
      simp only [height_node, size]
      rcases le_total left.height right.height with hle | hle
      · have hsplit : Nat.fib (height + 2) =
            Nat.fib (right.height + 1) + Nat.fib (right.height + 2) := by
          rw [hheight, max_eq_right hle]
          exact Nat.fib_add_two
        have hmono : Nat.fib (right.height + 1) ≤ Nat.fib (left.height + 2) :=
          Nat.fib_mono (by omega)
        omega
      · have hsplit : Nat.fib (height + 2) =
            Nat.fib (left.height + 1) + Nat.fib (left.height + 2) := by
          rw [hheight, max_eq_left hle]
          exact Nat.fib_add_two
        have hmono : Nat.fib (left.height + 1) ≤ Nat.fib (right.height + 2) :=
          Nat.fib_mono (by omega)
        omega

end HeightTree
