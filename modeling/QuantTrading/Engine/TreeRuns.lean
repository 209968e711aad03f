import QuantTrading.Engine.AvlMap
import QuantTrading.Engine.TreeUpdates

/-! # Runs of the tree in memory

The public functions of `avl_tree.c` on a tree that lives in memory: its own record
and the cells of its nodes. A run of insertions and deletions reaches what the same
run reaches on `AVLTree`, needs a recursion depth that is logarithmic in the number of
calls, and owns one cell for each entry; destroying the tree gives every one of them
back.
-/

namespace QuantTrading

open Separation Separation.Assertion Separation.Triple

variable {α β : Type}

/-! ## Sizes -/

section Sizes

variable [LT α] [DecidableLT α] [BEq α]

/-- A deletion leaves no more entries than there were. -/
theorem AVLNode.deleteNode_length_le {isBuyTree : Bool} {node root : AVLNode α Nat} {price : α}
    {timestamp : Int} (hroot : deleteNode isBuyTree node price timestamp = some root) :
    root.toList.length ≤ node.toList.length := by
  induction node generalizing price timestamp root with
  | nil =>
      cases hroot
      exact le_rfl
  | node entry left right height ihLeft ihRight =>
      rcases deleteNode_node_cases hroot with
        ⟨_, left', hleft', hlist⟩ | ⟨_, right', hright', hlist⟩ |
          ⟨_, hlist | ⟨successor, right', _, hright', hlist⟩⟩
      · have hle := ihLeft hleft'
        simp only [hlist, HeightTree.toList_node, List.length_append, List.length_cons]
        omega
      · have hle := ihRight hright'
        simp only [hlist, HeightTree.toList_node, List.length_append, List.length_cons]
        omega
      · simp only [hlist, HeightTree.toList_node, List.length_append, List.length_cons]
        omega
      · have hle := ihRight hright'
        simp only [hlist, HeightTree.toList_node, List.length_append, List.length_cons]
        omega

/-- Perform the call on a tree, whatever the comparison of prices answers. -/
def AVLTree.call (tree : AVLTree α Nat) : TreeOp α Nat → AVLTree α Nat
  | .insert price timestamp order => tree.insert price timestamp order
  | .delete price timestamp => tree.deleteOrder price timestamp

/-- A call adds at most one entry. -/
theorem AVLTree.call_length_le (tree : AVLTree α Nat) (op : TreeOp α Nat) :
    (tree.call op).entries.length ≤ tree.entries.length + 1 := by
  cases op with
  | insert price timestamp order =>
      rcases AVLNode.insertNode_toList_cases (tree.insertNode_eq_some price timestamp order) with
        ⟨hsame, _⟩ | ⟨first, second, hold, hnew⟩
      · exact (congrArg List.length hsame).trans_le (Nat.le_succ _)
      · rw [call, entries, hnew, entries, hold]
        simp only [List.length_append, List.length_cons]
        omega
  | delete price timestamp =>
      exact (AVLNode.deleteNode_length_le (tree.deleteNode_eq_some price timestamp)).trans
        (Nat.le_succ _)

end Sizes

/-- The height of a tree stays below any depth whose Fibonacci tree is larger. -/
theorem AVLTree.height_lt {tree : AVLTree α Nat} {depth : Nat}
    (hdepth : tree.entries.length + 1 < Nat.fib (depth + 2)) : tree.root.height < depth := by
  have hfib := tree.balanced.fib_le_size
  rw [← HeightTree.length_toList] at hfib
  by_contra hge
  have hmono : Nat.fib (depth + 2) ≤ Nat.fib (tree.root.height + 2) := Nat.fib_mono (by omega)
  exact absurd (hdepth.trans_le (hmono.trans hfib)) (lt_irrefl _)

namespace TreeMemory

/-! ## A tree and its record -/

/-- The record of a tree and its nodes. -/
def recordAt (address : Nat) (tree : AVLTree α Nat) : Assertion (EngineCell α) :=
  any fun root : Option Nat => points address (.tree root tree.isBuyTree) * treeAt root tree.root

section Record

variable {address depth : Nat} {tree : AVLTree α Nat} {other : Assertion (EngineCell α)}
  {post : β → Assertion (EngineCell α)}

theorem recordAt_intro {root : Option Nat} {part : Heap (EngineCell α)}
    (hpart : (points address (.tree root tree.isBuyTree) * (treeAt root tree.root * other) :
      Assertion (EngineCell α)) part) :
    (recordAt address tree * other) part := by
  rw [recordAt, any_mul]
  exact any_intro root ((mul_assoc _ _ other).symm ▸ hpart)

theorem open_record {program : Program (EngineCell α) β}
    (h : ∀ root, Triple (points address (.tree root tree.isBuyTree) *
      (treeAt root tree.root * other)) program post) :
    Triple (recordAt address tree * other) program post := by
  refine of_any_mul fun root => ?_
  rw [mul_assoc]
  exact h root

theorem loadTree_bind {root : Option Nat} {isBuyTree : Bool}
    {next : Option Nat × Bool → Program (EngineCell α) β}
    (hnext : Triple (points address (.tree root isBuyTree) * other) (next (root, isBuyTree)) post) :
    Triple (points address (.tree root isBuyTree) * other)
      (loadTree (some address) >>= next) post := by
  rw [loadTree, bind_assoc]
  exact load_bind rfl hnext

theorem avlCreate_spec (allocator : Allocator (EngineCell α)) (isBuyTree : Bool)
    (other : Assertion (EngineCell α)) :
    Triple other (avlCreate allocator isBuyTree) fun result =>
      match result with
      | none => fact allocator.Fails * other
      | some address => recordAt address (AVLTree.create isBuyTree) * other := by
  refine (allocate allocator _).last (one_mul other).symm fun result part hpart => ?_
  cases result with
  | none => exact hpart
  | some address =>
      apply recordAt_intro
      change (_ * (fact _ * other) : Assertion (EngineCell α)) part
      rw [fact_of_true rfl, one_mul]
      exact hpart

theorem avlDestroy_spec (hdepth : tree.root.height ≤ depth) :
    Triple (recordAt address tree * other) (avlDestroy depth (some address)) fun _ => other := by
  refine open_record fun root => ?_
  rw [avlDestroy]
  apply loadTree_bind
  dsimp only
  rw [mul_left_comm]
  have hfree : ∀ root', Triple (points address (.tree root' tree.isBuyTree) * other)
      (Program.free (some address)) fun _ => other := by
    intro root'
    exact free.last rfl fun _ part hpart => by rwa [one_mul] at hpart
  cases hroot : tree.root with
  | nil =>
      refine open_nil fun hpointer => ?_
      subst hpointer
      exact hfree none
  | node entry left right height =>
      rw [← hroot]
      cases root with
      | none =>
          apply know (p := False) ?_ False.elim
          intro part hpart
          rw [hroot] at hpart
          obtain ⟨_, hnone⟩ := pointer_of_node hpart
          cases hnone
      | some root =>
          refine (destroyNode_spec tree.balanced hdepth).bind fun _ => ?_
          exact store_bind rfl (hfree none)

/-- A query that only looks at a tree and its record. -/
theorem avlFindMin_spec (hdepth : tree.root.height ≤ depth) :
    Triple (recordAt address tree * other) (avlFindMin depth (some address)) fun result =>
      fact (result = tree.findMin) * (recordAt address tree * other) := by
  refine open_record fun root => ?_
  rw [avlFindMin]
  apply loadTree_bind
  rw [mul_left_comm]
  cases hroot : tree.root with
  | nil =>
      apply know fun _ => pointer_of_nil
      rintro rfl
      unfold findMinNode
      refine Triple.pure fun part hpart => fact_mul_apply.mpr ⟨?_, ?_⟩
      · simp [AVLTree.findMin, hroot, AVLNode.findMinNode]
      · rw [← hroot, mul_left_comm] at hpart
        exact recordAt_intro hpart
  | node entry left right height =>
      obtain ⟨first, hfirst⟩ : ∃ first, tree.root.findMinNode = some first := by
        rw [AVLNode.findMinNode_eq_head?, hroot]
        exact ⟨_, List.head?_eq_some_head (by simp)⟩
      rw [← hroot]
      refine (findMinNode_spec tree.balanced hdepth hfirst).bind fun result => ?_
      cases result with
      | none =>
          refine of_any fun place => of_fact_mul ?_
          rintro ⟨hnone, _⟩
          cases hnone
      | some node =>
          refine lends_bind fun cell hcell => Triple.pure fun part hpart => ?_
          refine fact_mul_apply.mpr ⟨?_, ?_⟩
          · rw [AVLTree.findMin, hfirst, ← hcell]
            rfl
          · rw [mul_left_comm] at hpart
            exact recordAt_intro hpart

theorem avlFindMax_spec (hdepth : tree.root.height ≤ depth) :
    Triple (recordAt address tree * other) (avlFindMax depth (some address)) fun result =>
      fact (result = tree.findMax) * (recordAt address tree * other) := by
  refine open_record fun root => ?_
  rw [avlFindMax]
  apply loadTree_bind
  rw [mul_left_comm]
  cases hroot : tree.root with
  | nil =>
      apply know fun _ => pointer_of_nil
      rintro rfl
      unfold findMaxNode
      refine Triple.pure fun part hpart => fact_mul_apply.mpr ⟨?_, ?_⟩
      · simp [AVLTree.findMax, hroot, AVLNode.findMaxNode]
      · rw [← hroot, mul_left_comm] at hpart
        exact recordAt_intro hpart
  | node entry left right height =>
      obtain ⟨last, hlast⟩ : ∃ last, tree.root.findMaxNode = some last := by
        rw [AVLNode.findMaxNode_eq_getLast?, hroot]
        exact ⟨_, List.getLast?_eq_some_getLast (by simp)⟩
      rw [← hroot]
      refine (findMaxNode_spec tree.balanced hdepth hlast).bind fun result => ?_
      cases result with
      | none =>
          refine of_any fun place => of_fact_mul ?_
          rintro ⟨hnone, _⟩
          cases hnone
      | some node =>
          refine lends_bind fun cell hcell => Triple.pure fun part hpart => ?_
          refine fact_mul_apply.mpr ⟨?_, ?_⟩
          · rw [AVLTree.findMax, hlast, ← hcell]
            rfl
          · rw [mul_left_comm] at hpart
            exact recordAt_intro hpart

theorem avlIsEmpty_spec :
    Triple (recordAt address tree * other) (avlIsEmpty (some address)) fun result =>
      fact (result = tree.isEmpty) * (recordAt address tree * other) := by
  refine open_record fun root => ?_
  rw [avlIsEmpty]
  apply loadTree_bind
  rw [mul_left_comm]
  cases hroot : tree.root with
  | nil =>
      apply know fun _ => pointer_of_nil
      rintro rfl
      refine Triple.pure fun part hpart => fact_mul_apply.mpr ⟨?_, ?_⟩
      · simp [AVLTree.isEmpty, hroot]
      · rw [← hroot, mul_left_comm] at hpart
        exact recordAt_intro hpart
  | node entry left right height =>
      apply know fun _ => pointer_of_node
      rintro ⟨address', rfl⟩
      refine Triple.pure fun part hpart => fact_mul_apply.mpr ⟨?_, ?_⟩
      · simp [AVLTree.isEmpty, hroot]
      · rw [← hroot, mul_left_comm] at hpart
        exact recordAt_intro hpart

/-- A traversal with a callback that works beside the tree. -/
theorem avlInorderTraverse_spec {σ : Type} {callback : Nat → σ → Program (EngineCell α) σ}
    {visit : Nat → σ → σ} (hdepth : tree.root.height ≤ depth)
    (hcallback : ∀ order ∈ tree.orders, ∀ userData : σ,
      Triple other (callback order userData) fun result =>
        fact (result = visit order userData) * other) (userData : σ) :
    Triple (recordAt address tree * other)
      (avlInorderTraverse callback depth (some address) userData) fun result =>
        fact (result = tree.inorderTraverse visit userData) *
          (recordAt address tree * other) := by
  refine open_record fun root => ?_
  rw [avlInorderTraverse]
  apply loadTree_bind
  rw [mul_left_comm]
  refine (inorderTraverse_spec _ tree.balanced hdepth (fun entry hentry =>
    hcallback entry.order (AVLTree.mem_orders.mpr ⟨entry, hentry, rfl⟩)) userData).weaken
      fun result part hpart => ?_
  obtain ⟨hresult, hpart⟩ := fact_mul_apply.mp hpart
  refine fact_mul_apply.mpr ⟨hresult, ?_⟩
  rw [mul_left_comm] at hpart
  exact recordAt_intro hpart

/-! ## The cells of a tree -/

theorem card_treeAt {pointer : Option Nat} {node : AVLNode α Nat} {part : Heap (EngineCell α)}
    (hpart : treeAt pointer node part) : part.keys.card = node.size := by
  induction node generalizing pointer part with
  | nil => exact card_fact hpart
  | node entry left right height ihLeft ihRight =>
      obtain ⟨place, hplace⟩ := hpart
      obtain ⟨_, hplace⟩ := fact_mul_apply.mp hplace
      have hchildren : ∀ part, (treeAt place.2.1 left * treeAt place.2.2 right) part →
          part.keys.card = left.size + right.size :=
        fun _ => card_mul (fun _ => ihLeft) fun _ => ihRight
      rw [card_mul (fun _ => card_points) hchildren hplace, HeightTree.size, Nat.add_comm]

/-- A tree and its record have one cell for each entry and one more. -/
theorem card_recordAt {part : Heap (EngineCell α)} (hpart : recordAt address tree part) :
    part.keys.card = tree.entries.length + 1 := by
  obtain ⟨root, hroot⟩ := hpart
  rw [card_mul (fun _ => card_points) (fun _ => card_treeAt) hroot, AVLTree.entries,
    HeightTree.length_toList, Nat.add_comm]

section Search

variable [LT α] [DecidableLT α] [BEq α]

/-- A call of `avl_insert` or `avl_delete_order` on a tree in memory. -/
def perform (allocator : Allocator (EngineCell α)) (depth : Nat) (tree : Option Nat) :
    TreeOp α Nat → Program (EngineCell α) Unit
  | .insert price timestamp order => avlInsert allocator depth tree price timestamp order
  | .delete price timestamp => avlDeleteOrder depth tree price timestamp

/-- What a call may make of a tree: an insertion that is refused memory may be lost. -/
def Effect (refused : Prop) (op : TreeOp α Nat) (tree tree' : AVLTree α Nat) : Prop :=
  tree' = tree.call op ∨
    (∃ price timestamp order, op = .insert price timestamp order) ∧ refused ∧ tree' = tree

theorem avlInsert_spec (allocator : Allocator (EngineCell α)) (hdepth : tree.root.height < depth)
    (price : α) (timestamp : Int) (order : Nat) :
    Triple (recordAt address tree * other)
      (avlInsert allocator depth (some address) price timestamp order) fun _ =>
        any fun tree' => fact (tree' = tree.insert price timestamp order ∨
          allocator.Fails ∧ tree' = tree) * (recordAt address tree' * other) := by
  refine open_record fun root => ?_
  rw [avlInsert]
  apply loadTree_bind
  dsimp only
  rw [mul_left_comm]
  refine (insertNode_spec tree.balanced hdepth).bind fun root' => of_any fun node =>
    of_fact_mul fun hinserted => ?_
  rw [mul_left_comm]
  refine (store _).last rfl fun _ part hpart => ?_
  rcases hinserted with hnode | ⟨hfails, rfl⟩
  · rw [tree.insertNode_eq_some] at hnode
    cases hnode
    exact any_intro (tree.insert price timestamp order)
      (fact_mul_apply.mpr ⟨Or.inl rfl, recordAt_intro hpart⟩)
  · exact any_intro tree (fact_mul_apply.mpr ⟨Or.inr ⟨hfails, rfl⟩, recordAt_intro hpart⟩)

theorem avlDeleteOrder_spec (hdepth : tree.root.height ≤ depth) (price : α) (timestamp : Int) :
    Triple (recordAt address tree * other)
      (avlDeleteOrder depth (some address) price timestamp) fun _ =>
        recordAt address (tree.deleteOrder price timestamp) * other := by
  refine open_record fun root => ?_
  rw [avlDeleteOrder]
  apply loadTree_bind
  dsimp only
  rw [mul_left_comm]
  refine (deleteNode_spec tree.balanced hdepth
    (tree.deleteNode_eq_some price timestamp)).bind fun root' => ?_
  rw [mul_left_comm]
  refine (store _).last rfl fun _ part hpart => ?_
  exact recordAt_intro hpart

theorem perform_spec (allocator : Allocator (EngineCell α)) (hdepth : tree.root.height < depth)
    (op : TreeOp α Nat) :
    Triple (recordAt address tree * other) (perform allocator depth (some address) op) fun _ =>
      any fun tree' =>
        fact (Effect allocator.Fails op tree tree') * (recordAt address tree' * other) := by
  cases op with
  | insert price timestamp order =>
      refine (avlInsert_spec allocator hdepth price timestamp order).weaken fun _ part hpart => ?_
      obtain ⟨tree', htree'⟩ := hpart
      obtain ⟨hinserted, hpart⟩ := fact_mul_apply.mp htree'
      refine any_intro tree' (fact_mul_apply.mpr ⟨hinserted.imp_right ?_, hpart⟩)
      exact fun hlost => ⟨⟨_, _, _, rfl⟩, hlost⟩
  | delete price timestamp =>
      refine (avlDeleteOrder_spec hdepth.le price timestamp).weaken fun _ part hpart => ?_
      exact any_intro (tree.deleteOrder price timestamp)
        (fact_mul_apply.mpr ⟨Or.inl rfl, hpart⟩)

/-- A call on the heap that the calls before it left. An insertion is lost only if memory is
refused to it on that heap. -/
def Called (allocator : Allocator (EngineCell α)) (depth address : Nat) (op : TreeOp α Nat)
    (before after : Moment (EngineCell α) Unit (AVLTree α Nat)) : Prop :=
  perform allocator depth (some address) op before.heap = some ((), after.heap) ∧
    Effect (allocator.Refuses (perform · depth (some address) op) before.heap) op before.state
      after.state

/-- A run of calls on a tree in memory, beside some other heap. -/
theorem performAll_on_heap (allocator : Allocator (EngineCell α)) {ops : List (TreeOp α Nat)}
    (hdepth : tree.entries.length + ops.length + 1 < Nat.fib (depth + 2))
    {part rest : Heap (EngineCell α)} (hpart : recordAt address tree part)
    (hdisjoint : part.Disjoint rest) :
    ∃ part' tree', ops.foldlM (fun _ op => perform allocator depth (some address) op) ()
        (part ∪ rest) = some ((), part' ∪ rest) ∧ part'.Disjoint rest ∧
      Path (Called allocator depth address) ops ⟨part ∪ rest, (), tree⟩ ⟨part' ∪ rest, (), tree'⟩ ∧
      tree'.entries.length + 1 < Nat.fib (depth + 2) ∧ recordAt address tree' part' := by
  have hstep : ∀ (_ : Unit) (op : TreeOp α Nat) (later : List (TreeOp α Nat))
      (tree : AVLTree α Nat) (part : Heap (EngineCell α)),
      tree.entries.length + (op :: later).length + 1 < Nat.fib (depth + 2) →
      recordAt address tree part → part.Disjoint rest →
      ∃ (answer : Unit) (part' : Heap (EngineCell α)) (tree' : AVLTree α Nat),
        perform allocator depth (some address) op (part ∪ rest) = some (answer, part' ∪ rest) ∧
        part'.Disjoint rest ∧
        Called allocator depth address op ⟨part ∪ rest, (), tree⟩ ⟨part' ∪ rest, (), tree'⟩ ∧
        tree'.entries.length + later.length + 1 < Nat.fib (depth + 2) ∧
        recordAt address tree' part' := by
    intro _ op later tree part hready hpart hdisjoint
    have hheight : tree.root.height < depth := AVLTree.height_lt (by omega)
    have hspec : ∀ allocator, Triple (recordAt address tree)
        (perform allocator depth (some address) op) fun _ => any fun tree' =>
          fact (Effect allocator.Fails op tree tree') * recordAt address tree' := by
      intro allocator
      have hcall : Triple (recordAt address tree * 1) (perform allocator depth (some address) op)
          fun _ => any fun tree' =>
            fact (Effect allocator.Fails op tree tree') * (recordAt address tree' * 1) :=
        perform_spec allocator hheight op
      simpa only [mul_one] using hcall
    obtain ⟨_, part', tree', hrun, hdisjoint', heffect, hpart'⟩ :=
      Triple.on_heap (fun refused _ tree' => Effect refused op tree tree') hspec allocator hpart
        hdisjoint
    refine ⟨(), part', tree', hrun, hdisjoint', ⟨hrun, heffect⟩, ?_, hpart'⟩
    rw [List.length_cons] at hready
    rcases heffect with rfl | ⟨_, _, rfl⟩
    · have hle := tree.call_length_le op
      omega
    · omega
  obtain ⟨_, part', tree', hrun⟩ := foldlM_path (fun _ tree => recordAt address tree)
    (Called allocator depth address)
    (fun tree later => tree.entries.length + later.length + 1 < Nat.fib (depth + 2)) hstep hdepth
    hpart hdisjoint
  exact ⟨part', tree', hrun⟩

/-- With an allocator that never gives up, every call does what it does on the tree. -/
theorem tree_of_path {allocator : Allocator (EngineCell α)} (hnever : ¬ allocator.Fails)
    {ops : List (TreeOp α Nat)} {start last : Moment (EngineCell α) Unit (AVLTree α Nat)}
    (hpath : Path (Called allocator depth address) ops start last) :
    last.state = ops.foldl AVLTree.call start.state := by
  induction hpath with
  | nil moment => rfl
  | cons hstep _ ih =>
      rw [ih, hstep.2.resolve_right fun hlost => hnever hlost.2.1.fails]
      rfl

/-- Create a tree and perform calls on it. -/
def build (allocator : Allocator (EngineCell α)) (depth : Nat) (isBuyTree : Bool)
    (ops : List (TreeOp α Nat)) : Program (EngineCell α) (Option Nat) := do
  let tree ← avlCreate allocator isBuyTree
  ops.foldlM (fun _ op => perform allocator depth tree op) ()
  return tree

/-- Calls on a null tree do nothing. -/
theorem performAll_none (allocator : Allocator (EngineCell α)) (depth : Nat)
    (ops : List (TreeOp α Nat)) :
    ops.foldlM (fun _ op => perform allocator depth none op) () = Pure.pure () := by
  induction ops with
  | nil => rfl
  | cons op rest ih => cases op <;> exact ih

/-- A tree that is created and called: a null pointer when the record of the tree is refused,
or the tree at the end of a path of calls. -/
theorem build_on_heap (allocator : Allocator (EngineCell α)) (isBuyTree : Bool)
    {ops : List (TreeOp α Nat)} (hdepth : ops.length + 1 < Nat.fib (depth + 2))
    (heap : Heap (EngineCell α)) :
    ∃ result part, build allocator depth isBuyTree ops heap = some (result, part ∪ heap) ∧
      part.Disjoint heap ∧
      match result with
      | none => allocator.choose heap = none ∧ part = ∅
      | some address => ∃ created tree,
          avlCreate allocator isBuyTree heap = some (some address, created) ∧
          Path (Called allocator depth address) ops ⟨created, (), AVLTree.create isBuyTree⟩
            ⟨part ∪ heap, (), tree⟩ ∧
          tree.entries.length + 1 < Nat.fib (depth + 2) ∧ recordAt address tree part := by
  have hspec : ∀ allocator : Allocator (EngineCell α), Triple 1 (avlCreate allocator isBuyTree)
      fun result => match result with
        | none => fact allocator.Fails * 1
        | some address => recordAt address (AVLTree.create isBuyTree) := by
    intro allocator
    refine (avlCreate_spec allocator isBuyTree 1).weaken fun result part hpart => ?_
    cases result with
    | none => exact hpart
    | some address =>
        have hrecord : (recordAt address (AVLTree.create isBuyTree) * 1 :
          Assertion (EngineCell α)) part := hpart
        rwa [mul_one] at hrecord
  obtain ⟨result, part, hcreate, hdisjoint, hcreated⟩ :=
    Triple.pointer_on_heap (fun refused => refused) hspec allocator (one_apply.mpr rfl)
      (Finmap.disjoint_empty heap)
  rw [Finmap.empty_union] at hcreate hcreated
  have hbuild : build allocator depth isBuyTree ops heap =
      (ops.foldlM (fun _ op => perform allocator depth result op) () (part ∪ heap)).bind
        fun outcome => some (result, outcome.2) := by
    change (avlCreate allocator isBuyTree heap).bind _ = _
    rw [hcreate]
    rfl
  cases result with
  | none =>
      refine ⟨none, part, ?_, hdisjoint, Allocator.refuses_allocate_iff.mp hcreated.1, hcreated.2⟩
      rw [hbuild, performAll_none]
      rfl
  | some address =>
      have hstart : (AVLTree.create isBuyTree : AVLTree α Nat).entries.length + ops.length + 1 <
          Nat.fib (depth + 2) := by
        simpa using hdepth
      obtain ⟨part', tree, hrun, hdisjoint', hpath⟩ :=
        performAll_on_heap allocator hstart hcreated hdisjoint
      refine ⟨some address, part', ?_, hdisjoint', _, tree, hcreate, hpath⟩
      rw [hbuild, hrun]
      rfl

/-- Any run of `avl_insert` and `avl_delete_order` on a new tree, under any allocator, in
any heap: the pointer program never goes wrong, recurses only logarithmically deep,
leaves the other cells alone, and ends with the tree that the pure functions reach, less the
insertions to which memory was refused on the heap that they found, in exactly one cell for
each entry and one for the tree. When no memory is refused it is the tree of all calls. -/
theorem build_refines (allocator : Allocator (EngineCell α)) (isBuyTree : Bool)
    (ops : List (TreeOp α Nat)) (depth : Nat) (hdepth : ops.length + 1 < Nat.fib (depth + 2))
    (heap : Heap (EngineCell α)) :
    ∃ result part, build allocator depth isBuyTree ops heap = some (result, part ∪ heap) ∧
      part.Disjoint heap ∧
      match result with
      | none => allocator.choose heap = none ∧ part = ∅
      | some address =>
          (∃ created tree, avlCreate allocator isBuyTree heap = some (some address, created) ∧
            Path (Called allocator depth address) ops ⟨created, (), AVLTree.create isBuyTree⟩
              ⟨part ∪ heap, (), tree⟩ ∧
            recordAt address tree part ∧ part.keys.card = tree.entries.length + 1) ∧
          (¬ allocator.Refuses (build · depth isBuyTree ops) heap →
            recordAt address (ops.foldl AVLTree.call (AVLTree.create isBuyTree)) part) := by
  obtain ⟨result, part, hrun, hdisjoint, hpart⟩ := build_on_heap allocator isBuyTree hdepth heap
  refine ⟨result, part, hrun, hdisjoint, ?_⟩
  cases result with
  | none => exact hpart
  | some address =>
      obtain ⟨created, tree, hcreate, hpath, _, hrecord⟩ := hpart
      refine ⟨⟨created, tree, hcreate, hpath, hrecord, card_recordAt hrecord⟩, fun hgranted => ?_⟩
      obtain ⟨result', part', hrun', hdisjoint', hpart'⟩ :=
        build_on_heap allocator.unfailing isBuyTree hdepth heap
      obtain ⟨rfl, hheap⟩ := Prod.ext_iff.mp (Option.some.inj
        (hrun'.symm.trans ((not_not.mp hgranted).symm.trans hrun)))
      obtain rfl := (Finmap.union_cancel hdisjoint' hdisjoint).mp hheap
      obtain ⟨_, tree', _, hpath', _, hrecord'⟩ := hpart'
      exact tree_of_path allocator.unfailing_never hpath' ▸ hrecord'

/-- Two orders and a deletion. -/
def threeCalls : List (TreeOp Int Nat) :=
  [.insert 100 1 7, .insert 101 2 8, .delete 100 1]

theorem build_refines_three_calls :
    ∃ result part, build Allocator.highest 3 true threeCalls ∅ = some (result, part ∪ ∅) ∧
      part.Disjoint ∅ ∧
      match result with
      | none => (Allocator.highest : Allocator (EngineCell Int)).choose ∅ = none ∧ part = ∅
      | some address =>
          (∃ created tree, avlCreate Allocator.highest true ∅ = some (some address, created) ∧
            Path (Called Allocator.highest 3 address) threeCalls ⟨created, (), AVLTree.create true⟩
              ⟨part ∪ ∅, (), tree⟩ ∧
            recordAt address tree part ∧ part.keys.card = tree.entries.length + 1) ∧
          (¬ Allocator.highest.Refuses (build · 3 true threeCalls) ∅ →
            recordAt address (threeCalls.foldl AVLTree.call (AVLTree.create true)) part) :=
  build_refines Allocator.highest true threeCalls 3 (by decide) ∅

/-- Create a tree, perform calls on it and destroy it. -/
def lifecycle (allocator : Allocator (EngineCell α)) (depth : Nat) (isBuyTree : Bool)
    (ops : List (TreeOp α Nat)) : Program (EngineCell α) Unit := do
  let tree ← build allocator depth isBuyTree ops
  avlDestroy depth tree

/-- After `avl_destroy` the heap is the one before `avl_create`, whatever was inserted and
deleted between: no cell is leaked, freed twice or read after it was freed. -/
theorem lifecycle_restores_heap (allocator : Allocator (EngineCell α)) (isBuyTree : Bool)
    (ops : List (TreeOp α Nat)) (depth : Nat) (hdepth : ops.length + 1 < Nat.fib (depth + 2))
    (heap : Heap (EngineCell α)) :
    lifecycle allocator depth isBuyTree ops heap = some ((), heap) := by
  obtain ⟨result, part, hbuild, hdisjoint, hpart⟩ := build_on_heap allocator isBuyTree hdepth heap
  change (build allocator depth isBuyTree ops heap).bind _ = _
  rw [hbuild]
  cases result with
  | none =>
      obtain ⟨-, rfl⟩ := hpart
      rw [Finmap.empty_union]
      rfl
  | some address =>
      obtain ⟨_, tree, _, _, hsmall, hrecord⟩ := hpart
      have hdestroy : Triple (recordAt address tree * 1) (avlDestroy depth (some address))
          fun _ => 1 := avlDestroy_spec (AVLTree.height_lt hsmall).le
      rw [mul_one] at hdestroy
      obtain ⟨_, rest, hrun, _, hrest⟩ := hdestroy part heap hrecord hdisjoint
      rw [one_apply.mp hrest, Finmap.empty_union] at hrun
      exact hrun

theorem lifecycle_restores_heap_three_calls :
    lifecycle Allocator.highest 3 true threeCalls ∅ = some ((), ∅) :=
  lifecycle_restores_heap Allocator.highest true threeCalls 3 (by decide) ∅

end Search

end Record

end TreeMemory

end QuantTrading
