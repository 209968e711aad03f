import QuantTrading.Engine.TreeMemory

/-! # Insertion, deletion and destruction in memory

The recursive programs on trees. Each of them needs to reach no deeper than the
cached height of the tree, which in a balanced tree is its real one. Under an allocator
that gives up on some heap an insertion may leave the tree as it was.
-/

namespace QuantTrading

open Separation Separation.Assertion Separation.Triple

variable {α β : Type}

/-- The payload of a node. -/
def NodeCell.entry (cell : NodeCell α) : Entry α Nat :=
  ⟨cell.price, cell.timestamp, cell.order⟩

namespace TreeMemory

variable {pointer : Option Nat} {tree : AVLNode α Nat} {other : Assertion (EngineCell α)}
  {depth : Nat}

theorem pointer_of_nil {part : Heap (EngineCell α)}
    (hpart : (treeAt pointer (.nil : AVLNode α Nat) * other) part) : pointer = none :=
  (fact_mul_apply.mp hpart).1

theorem pointer_of_node {entry : Entry α Nat} {left right : AVLNode α Nat} {height : Nat}
    {part : Heap (EngineCell α)}
    (hpart : (treeAt pointer (.node entry left right height) * other) part) :
    ∃ address, pointer = some address := by
  obtain ⟨_, _, _, _, ⟨place, hplace⟩, _⟩ := hpart
  exact ⟨place.1, (fact_mul_apply.mp hplace).1⟩

/-! ## The ends of a tree -/

/-- A node of the part with this payload is lent to the caller. -/
def lends (whole : Assertion (EngineCell α)) (entry : Entry α Nat) (result : Option Nat) :
    Assertion (EngineCell α) :=
  any fun place : Nat × NodeCell α =>
    fact (result = some place.1 ∧ place.2.entry = entry) * lent whole place.1 (.node place.2)

theorem lends_intro {whole : Assertion (EngineCell α)} {address : Nat} {cell : NodeCell α}
    {part : Heap (EngineCell α)} (hpart : lent whole address (.node cell) part) :
    lends whole cell.entry (some address) part :=
  any_intro (address, cell) (fact_mul_apply.mpr ⟨⟨rfl, rfl⟩, hpart⟩)

theorem lends_mono {whole whole' : Assertion (EngineCell α)} {entry : Entry α Nat}
    {result : Option Nat} (hwhole : ∀ part, whole part → whole' part)
    {part : Heap (EngineCell α)} (hpart : lends whole entry result part) :
    lends whole' entry result part := by
  obtain ⟨place, hplace⟩ := hpart
  obtain ⟨hresult, hlent⟩ := fact_mul_apply.mp hplace
  exact any_intro place (fact_mul_apply.mpr ⟨hresult, lent_mono hwhole hlent⟩)

theorem findMinNode_spec {entry : Entry α Nat} (hbal : tree.Balanced)
    (hdepth : tree.height ≤ depth) (hmin : tree.findMinNode = some entry) :
    Triple (treeAt pointer tree * other) (findMinNode depth pointer)
      (lends (treeAt pointer tree * other) entry) := by
  induction tree generalizing pointer depth other with
  | nil => cases hmin
  | node value left right height ihLeft _ =>
      obtain ⟨hheight, _, _, hleft, _⟩ := hbal
      rw [HeightTree.height_node] at hdepth
      obtain _ | depth := depth
      · omega
      refine open_node fun address l r hpointer => ?_
      subst hpointer
      rw [findMinNode]
      apply loadNode_bind
      rw [mul_left_comm]
      cases left with
      | nil =>
          apply know fun _ => pointer_of_nil
          rintro rfl
          cases hmin
          refine Triple.pure fun part hpart => ?_
          rw [mul_left_comm] at hpart
          exact lends_intro (lent_intro (fun _ => treeAt_fold) hpart)
      | node child near far childHeight =>
          apply know fun _ => pointer_of_node
          rintro ⟨address', rfl⟩
          refine (ihLeft hleft (by omega) hmin).weaken fun result part hpart => ?_
          refine lends_mono (fun part' hpart' => ?_) hpart
          rw [mul_left_comm] at hpart'
          exact treeAt_fold hpart'

theorem findMaxNode_spec {entry : Entry α Nat} (hbal : tree.Balanced)
    (hdepth : tree.height ≤ depth) (hmax : tree.findMaxNode = some entry) :
    Triple (treeAt pointer tree * other) (findMaxNode depth pointer)
      (lends (treeAt pointer tree * other) entry) := by
  induction tree generalizing pointer depth other with
  | nil => cases hmax
  | node value left right height _ ihRight =>
      obtain ⟨hheight, _, _, _, hright⟩ := hbal
      rw [HeightTree.height_node] at hdepth
      obtain _ | depth := depth
      · omega
      refine open_node fun address l r hpointer => ?_
      subst hpointer
      rw [findMaxNode]
      apply loadNode_bind
      have hfront : nodeAt address value l r height * (treeAt l left * (treeAt r right * other)) =
          treeAt r right * (nodeAt address value l r height * (treeAt l left * other)) := by
        ac_rfl
      rw [hfront]
      cases right with
      | nil =>
          apply know fun _ => pointer_of_nil
          rintro rfl
          cases hmax
          refine Triple.pure fun part hpart => ?_
          rw [← hfront] at hpart
          exact lends_intro (lent_intro (fun _ => treeAt_fold) hpart)
      | node child near far childHeight =>
          apply know fun _ => pointer_of_node
          rintro ⟨address', rfl⟩
          refine (ihRight hright (by omega) hmax).weaken fun result part hpart => ?_
          refine lends_mono (fun part' hpart' => ?_) hpart
          rw [← hfront] at hpart'
          exact treeAt_fold hpart'

/-- Reading a lent node and giving it back. -/
theorem lends_bind {entry : Entry α Nat} {result : Option Nat} {whole : Assertion (EngineCell α)}
    {next : NodeCell α → Program (EngineCell α) β} {post : β → Assertion (EngineCell α)}
    (hnext : ∀ cell : NodeCell α, cell.entry = entry → Triple whole (next cell) post) :
    Triple (lends whole entry result) (loadNode result >>= next) post := by
  refine of_any fun place => of_fact_mul ?_
  rintro ⟨rfl, hentry⟩
  rw [loadNode, bind_assoc, ← mul_one (lent whole _ _)]
  apply lent_bind
  rw [mul_one]
  exact hnext place.2 hentry

/-! ## Insertion -/

section Search

variable [LT α] [DecidableLT α] [BEq α]

/-- What an insertion may make of a tree: the new tree, or the old one when the
allocator gives up on some heap. -/
def Inserted (allocator : Allocator (EngineCell α)) (new : Entry α Nat) (isBuyTree : Bool)
    (tree tree' : AVLNode α Nat) : Prop :=
  AVLNode.insertNode new isBuyTree tree = some tree' ∨ allocator.Fails ∧ tree' = tree

variable {allocator : Allocator (EngineCell α)} {new entry : Entry α Nat} {isBuyTree : Bool}
  {left left' right right' : AVLNode α Nat} {height : Nat}

/-- Rebalancing above an insertion on the left. -/
theorem Inserted.at_left (hbal : HeightTree.Balanced (.node entry left right height))
    (hcmp : AVLNode.compareNodes new.price new.timestamp entry.price entry.timestamp
      isBuyTree < 0)
    (hinserted : Inserted allocator new isBuyTree left left') :
    ∃ tree', AVLNode.rebalanceInsert new isBuyTree entry left' right = some tree' ∧
      Inserted allocator new isBuyTree (.node entry left right height) tree' := by
  rcases hinserted with hleft' | ⟨hfails, rfl⟩
  · obtain ⟨tree', htree', _⟩ := AVLNode.insertNode_balanced new isBuyTree _ hbal
    refine ⟨tree', ?_, Or.inl htree'⟩
    unfold AVLNode.insertNode at htree'
    dsimp only at htree'
    rwa [if_pos hcmp, hleft'] at htree'
  · obtain ⟨rfl, hleft, hright, _, _⟩ := hbal
    exact ⟨_, AVLNode.rebalanceInsert_of_close new entry isBuyTree hleft hright,
      Or.inr ⟨hfails, rfl⟩⟩

/-- Rebalancing above an insertion on the right. -/
theorem Inserted.at_right (hbal : HeightTree.Balanced (.node entry left right height))
    (hcmp : AVLNode.compareNodes new.price new.timestamp entry.price entry.timestamp
      isBuyTree > 0)
    (hinserted : Inserted allocator new isBuyTree right right') :
    ∃ tree', AVLNode.rebalanceInsert new isBuyTree entry left right' = some tree' ∧
      Inserted allocator new isBuyTree (.node entry left right height) tree' := by
  rcases hinserted with hright' | ⟨hfails, rfl⟩
  · obtain ⟨tree', htree', _⟩ := AVLNode.insertNode_balanced new isBuyTree _ hbal
    refine ⟨tree', ?_, Or.inl htree'⟩
    unfold AVLNode.insertNode at htree'
    dsimp only at htree'
    rwa [if_neg (by omega), if_pos hcmp, hright'] at htree'
  · obtain ⟨rfl, hleft, hright, _, _⟩ := hbal
    exact ⟨_, AVLNode.rebalanceInsert_of_close new entry isBuyTree hleft hright,
      Or.inr ⟨hfails, rfl⟩⟩

theorem insertNode_spec (hbal : tree.Balanced) (hdepth : tree.height < depth) :
    Triple (treeAt pointer tree * other) (insertNode allocator new isBuyTree depth pointer)
      fun result => any fun tree' => fact (Inserted allocator new isBuyTree tree tree') *
        (treeAt result tree' * other) := by
  induction tree generalizing pointer depth other with
  | nil =>
      obtain _ | depth := depth
      · omega
      refine open_nil fun hpointer => ?_
      subst hpointer
      rw [insertNode, createNode]
      refine (allocate allocator _).last (one_mul other).symm fun result part hpart => ?_
      cases result with
      | none =>
          obtain ⟨hfails, hother⟩ := fact_mul_apply.mp hpart
          exact any_intro .nil (fact_mul_apply.mpr ⟨Or.inr ⟨hfails, rfl⟩, treeAt_nil_intro hother⟩)
      | some address =>
          refine any_intro (AVLNode.createNode new) (fact_mul_apply.mpr ⟨Or.inl rfl, ?_⟩)
          refine treeAt_fold (l := none) (r := none) ?_
          rw [treeAt, fact_of_true rfl, one_mul, one_mul]
          exact hpart
  | node entry left right height ihLeft ihRight =>
      obtain ⟨hheight, hleftClose, hrightClose, hleft, hright⟩ := id hbal
      rw [HeightTree.height_node] at hdepth
      obtain _ | depth := depth
      · omega
      refine open_node fun address l r hpointer => ?_
      subst hpointer
      rw [insertNode]
      apply loadNode_bind
      dsimp only
      by_cases hless : AVLNode.compareNodes new.price new.timestamp entry.price entry.timestamp
          isBuyTree < 0
      · rw [if_pos hless, mul_left_comm]
        refine (ihLeft hleft (by omega)).bind fun l' => of_any fun left' =>
          of_fact_mul fun hins => ?_
        obtain ⟨tree', hrebalance, htree'⟩ := hins.at_left hbal hless
        rw [mul_left_comm]
        apply setLeft_bind
        refine (rebalanceInsert_spec hrebalance).weaken fun result part hpart => ?_
        exact any_intro tree' (fact_mul_apply.mpr ⟨htree', hpart⟩)
      · rw [if_neg hless]
        by_cases hgreater : AVLNode.compareNodes new.price new.timestamp entry.price
            entry.timestamp isBuyTree > 0
        · rw [if_pos hgreater]
          refine Triple.reorder (treeAt r right * (nodeAt address entry l r height *
            (treeAt l left * other))) (by ac_rfl) ?_
          refine (ihRight hright (by omega)).bind fun r' => of_any fun right' =>
            of_fact_mul fun hins => ?_
          obtain ⟨tree', hrebalance, htree'⟩ := hins.at_right hbal hgreater
          refine Triple.reorder (nodeAt address entry l r height * (treeAt l left *
            (treeAt r' right' * other))) (by ac_rfl) ?_
          apply setRight_bind
          refine (rebalanceInsert_spec hrebalance).weaken fun result part hpart => ?_
          exact any_intro tree' (fact_mul_apply.mpr ⟨htree', hpart⟩)
        · rw [if_neg hgreater]
          refine close_node (Triple.pure fun part hpart => ?_)
          refine any_intro (.node entry left right height) (fact_mul_apply.mpr ⟨Or.inl ?_, hpart⟩)
          unfold AVLNode.insertNode
          dsimp only
          rw [if_neg hless, if_neg hgreater]

/-! ## Deletion -/

omit [LT α] [DecidableLT α] [BEq α] in
/-- Reading the payload of the leftmost node. -/
theorem successor_bind {successor : Entry α Nat} (hbal : tree.Balanced)
    (hdepth : tree.height ≤ depth) (hmin : tree.findMinNode = some successor)
    {next : NodeCell α → Program (EngineCell α) β} {post : β → Assertion (EngineCell α)}
    (hnext : ∀ cell : NodeCell α, cell.entry = successor →
      Triple (treeAt pointer tree * other) (next cell) post) :
    Triple (treeAt pointer tree * other)
      (findMinNode depth pointer >>= fun temp => loadNode temp >>= next) post :=
  (findMinNode_spec hbal hdepth hmin).bind fun _ => lends_bind hnext

omit [LT α] [DecidableLT α] [BEq α] in
/-- Moving the cell of an only child over the cell of its parent. -/
theorem moveUp_spec {child : Entry α Nat} {childLeft childRight tree' : AVLNode α Nat}
    {childHeight address : Nat} {l r : Option Nat}
    (hrebalance : AVLNode.rebalanceDelete child childLeft childRight = some tree') :
    Triple (treeAt pointer (.node child childLeft childRight childHeight) *
        (nodeAt address entry l r height * other))
      (do
        Program.store (some address) (.node (← loadNode pointer))
        Program.free pointer
        rebalanceDelete (some address)) fun result => treeAt result tree' * other := by
  refine open_node fun address' l' r' hpointer => ?_
  subst hpointer
  apply loadNode_bind
  refine Triple.reorder (nodeAt address entry l r height *
    (nodeAt address' child l' r' childHeight *
      (treeAt l' childLeft * (treeAt r' childRight * other)))) (by ac_rfl) ?_
  refine store_bind rfl ?_
  rw [mul_left_comm]
  exact free_bind rfl (rebalanceDelete_spec hrebalance)

theorem deleteNode_spec {price : α} {timestamp : Int} {tree' : AVLNode α Nat}
    (hbal : tree.Balanced) (hdepth : tree.height ≤ depth)
    (hdelete : AVLNode.deleteNode isBuyTree tree price timestamp = some tree') :
    Triple (treeAt pointer tree * other) (deleteNode isBuyTree depth pointer price timestamp)
      fun result => treeAt result tree' * other := by
  induction tree generalizing pointer depth other price timestamp tree' with
  | nil =>
      cases hdelete
      refine open_nil fun hpointer => ?_
      subst hpointer
      unfold deleteNode
      exact Triple.pure fun _ => treeAt_nil_intro
  | node entry left right height ihLeft ihRight =>
      obtain ⟨hheight, _, _, hleft, hright⟩ := hbal
      rw [HeightTree.height_node] at hdepth
      obtain _ | depth := depth
      · omega
      unfold AVLNode.deleteNode at hdelete
      dsimp only at hdelete
      refine open_node fun address l r hpointer => ?_
      subst hpointer
      have hfront : nodeAt address entry l r height * (treeAt l left * (treeAt r right * other)) =
          treeAt r right * (nodeAt address entry l r height * (treeAt l left * other)) := by
        ac_rfl
      rw [deleteNode]
      apply loadNode_bind
      dsimp only
      by_cases hless : AVLNode.compareNodes price timestamp entry.price entry.timestamp
          isBuyTree < 0
      · rw [if_pos hless] at hdelete ⊢
        obtain ⟨left', hleft', hrebalance⟩ := Option.bind_eq_some_iff.mp hdelete
        rw [mul_left_comm]
        refine (ihLeft hleft (by omega) hleft').bind fun l' => ?_
        rw [mul_left_comm]
        apply setLeft_bind
        exact rebalanceDelete_spec hrebalance
      rw [if_neg hless] at hdelete ⊢
      by_cases hgreater : AVLNode.compareNodes price timestamp entry.price entry.timestamp
          isBuyTree > 0
      · rw [if_pos hgreater] at hdelete ⊢
        obtain ⟨right', hright', hrebalance⟩ := Option.bind_eq_some_iff.mp hdelete
        rw [hfront]
        refine (ihRight hright (by omega) hright').bind fun r' => ?_
        refine Triple.reorder (nodeAt address entry l r height * (treeAt l left *
          (treeAt r' right' * other))) (by ac_rfl) ?_
        apply setRight_bind
        exact rebalanceDelete_spec hrebalance
      rw [if_neg hgreater] at hdelete ⊢
      cases left with
      | nil =>
          rw [mul_left_comm]
          refine open_nil fun hl => ?_
          subst hl
          rw [mul_left_comm]
          cases right with
          | nil =>
              refine open_nil fun hr => ?_
              subst hr
              cases hdelete
              exact free_bind rfl (Triple.pure fun _ => treeAt_nil_intro)
          | node child near far childHeight =>
              apply know fun _ => pointer_of_node
              rintro ⟨address', rfl⟩
              exact moveUp_spec hdelete
      | node child near far childHeight =>
          rw [mul_left_comm]
          apply know fun _ => pointer_of_node
          rintro ⟨address', rfl⟩
          cases right with
          | nil =>
              rw [mul_left_comm, mul_left_comm (treeAt (some address') _)]
              rw [mul_left_comm]
              refine open_nil fun hr => ?_
              subst hr
              rw [mul_left_comm]
              exact moveUp_spec hdelete
          | node child' near' far' childHeight' =>
              rw [mul_left_comm, hfront]
              apply know fun _ => pointer_of_node
              rintro ⟨address'', rfl⟩
              obtain ⟨successor, hmin, hdelete⟩ := Option.bind_eq_some_iff.mp hdelete
              obtain ⟨right', hright', hrebalance⟩ := Option.bind_eq_some_iff.mp hdelete
              refine successor_bind hright (by omega) hmin fun cell hcell => ?_
              subst hcell
              rw [← hfront]
              refine store_bind rfl ?_
              refine Triple.reorder
                (treeAt (some address'') (.node child' near' far' childHeight') *
                (nodeAt address cell.entry (some address') (some address'') height *
                  (treeAt (some address') (.node child near far childHeight) * other)))
                (by ac_rfl) ?_
              refine (ihRight hright (by omega) hright').bind fun r' => ?_
              refine Triple.reorder (nodeAt address cell.entry (some address') (some address'')
                height * (treeAt (some address') (.node child near far childHeight) *
                  (treeAt r' right' * other))) (by ac_rfl) ?_
              apply setRight_bind
              exact rebalanceDelete_spec hrebalance

end Search

/-! ## Destruction and traversal -/

theorem destroyNode_spec (hbal : tree.Balanced) (hdepth : tree.height ≤ depth) :
    Triple (treeAt pointer tree * other) (destroyNode depth pointer) fun _ => other := by
  induction tree generalizing pointer depth other with
  | nil =>
      refine open_nil fun hpointer => ?_
      subst hpointer
      unfold destroyNode
      exact Triple.pure fun _ => id
  | node entry left right height ihLeft ihRight =>
      obtain ⟨hheight, _, _, hleft, hright⟩ := hbal
      rw [HeightTree.height_node] at hdepth
      obtain _ | depth := depth
      · omega
      refine open_node fun address l r hpointer => ?_
      subst hpointer
      rw [destroyNode]
      apply loadNode_bind
      rw [mul_left_comm]
      refine (ihLeft hleft (by omega)).bind fun _ => ?_
      apply loadNode_bind
      rw [mul_left_comm]
      refine (ihRight hright (by omega)).bind fun _ => ?_
      exact free.last rfl fun _ part hpart => by rwa [one_mul] at hpart

/-- A traversal calls the callback in order, when the callback works beside the tree. -/
theorem inorderTraverse_spec {σ : Type} {callback : Nat → σ → Program (EngineCell α) σ}
    {visit : Nat → σ → σ} (surround : Assertion (EngineCell α)) (hbal : tree.Balanced)
    (hdepth : tree.height ≤ depth)
    (hcallback : ∀ entry ∈ tree.toList, ∀ userData : σ,
      Triple other (callback entry.order userData) fun result =>
        fact (result = visit entry.order userData) * other) (userData : σ) :
    Triple (treeAt pointer tree * (surround * other))
      (inorderTraverse callback depth pointer userData) fun result =>
        fact (result = tree.inorderTraverse visit userData) *
          (treeAt pointer tree * (surround * other)) := by
  induction tree generalizing pointer depth surround userData with
  | nil =>
      apply know fun _ => pointer_of_nil
      rintro rfl
      unfold inorderTraverse
      exact Triple.pure fun part hpart => fact_mul_apply.mpr ⟨rfl, hpart⟩
  | node entry left right height ihLeft ihRight =>
      obtain ⟨hheight, _, _, hleft, hright⟩ := hbal
      rw [HeightTree.height_node] at hdepth
      obtain _ | depth := depth
      · omega
      refine open_node fun address l r hpointer => ?_
      subst hpointer
      rw [inorderTraverse]
      apply loadNode_bind
      refine Triple.reorder (treeAt l left * ((nodeAt address entry l r height *
        (treeAt r right * surround)) * other)) (by ac_rfl) ?_
      refine (ihLeft _ hleft (by omega) (fun entry' hentry' =>
        hcallback entry' (by simp [hentry'])) userData).bind fun result => of_fact_mul ?_
      rintro rfl
      refine Triple.reorder (other * (treeAt l left * (nodeAt address entry l r height *
        (treeAt r right * surround)))) (by ac_rfl) ?_
      refine (hcallback entry (by simp) _).call rfl fun result => ?_
      rw [mul_assoc]
      apply of_fact_mul
      rintro rfl
      refine Triple.reorder (nodeAt address entry l r height * (treeAt l left *
        (treeAt r right * (surround * other)))) (by ac_rfl) ?_
      apply loadNode_bind
      refine Triple.reorder (treeAt r right * ((nodeAt address entry l r height *
        (treeAt l left * surround)) * other)) (by ac_rfl) ?_
      refine (ihRight _ hright (by omega) (fun entry' hentry' =>
        hcallback entry' (by simp [hentry'])) _).weaken fun result part hpart => ?_
      obtain ⟨hresult, hpart⟩ := fact_mul_apply.mp hpart
      refine fact_mul_apply.mpr ⟨hresult, treeAt_fold (l := l) (r := r) ?_⟩
      have hsame : nodeAt address entry l r height *
          (treeAt l left * (treeAt r right * (surround * other))) =
          treeAt r right * ((nodeAt address entry l r height *
            (treeAt l left * surround)) * other) := by
        ac_rfl
      rwa [hsame]

end TreeMemory

end QuantTrading
