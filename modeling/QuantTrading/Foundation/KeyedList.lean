import Mathlib.Data.List.Basic
import Mathlib.Data.List.Sort
import Mathlib.Order.Basic

/-! # Finite maps as strictly ascending lists

A finite map is a list of elements whose keys strictly ascend. Insertion leaves
the list alone when the key is already present; erasure drops the element of a
key. The laws that split a list at one of its elements are the ones a search
tree needs, since its in-order list splits at the root.
-/

namespace KeyedList

variable {β κ : Type*} [LinearOrder κ] (key : β → κ)

/-- The keys strictly ascend along the list. -/
def Ascending (list : List β) : Prop :=
  list.Pairwise fun first second => key first < key second

/-- Put `x` at the position of its key, or keep the list when the key is present. -/
def insertKey (x : β) : List β → List β
  | [] => [x]
  | y :: rest =>
      if key x < key y then x :: y :: rest
      else if key y < key x then y :: insertKey x rest
      else y :: rest

/-- Drop the elements with key `k`; an ascending list has at most one. -/
def eraseKey (k : κ) (list : List β) : List β :=
  list.filter fun y => key y ≠ k

variable {key}

theorem Ascending.left {first second : List β} (hasc : Ascending key (first ++ second)) :
    Ascending key first :=
  (List.pairwise_append.mp hasc).1

theorem Ascending.right {first second : List β} (hasc : Ascending key (first ++ second)) :
    Ascending key second :=
  (List.pairwise_append.mp hasc).2.1

theorem Ascending.tail {y : β} {rest : List β} (hasc : Ascending key (y :: rest)) :
    Ascending key rest :=
  (List.pairwise_cons.mp hasc).2

/-- Everything before the split element has a smaller key. -/
theorem Ascending.lt_split {first second : List β} {y : β}
    (hasc : Ascending key (first ++ y :: second)) : ∀ x ∈ first, key x < key y :=
  fun x hx => (List.pairwise_append.mp hasc).2.2 x hx y List.mem_cons_self

/-- Everything after the split element has a larger key. -/
theorem Ascending.split_lt {first second : List β} {y : β}
    (hasc : Ascending key (first ++ y :: second)) : ∀ x ∈ second, key y < key x :=
  (List.pairwise_cons.mp hasc.right).1

theorem Ascending.eq_of_key_eq {list : List β} (hasc : Ascending key list) {x y : β}
    (hx : x ∈ list) (hy : y ∈ list) (heq : key x = key y) : x = y := by
  induction list with
  | nil => simp at hx
  | cons z rest ih =>
      have hhead := (List.pairwise_cons.mp hasc).1
      rcases List.mem_cons.mp hx with rfl | hx' <;> rcases List.mem_cons.mp hy with rfl | hy'
      · rfl
      · exact absurd heq (hhead y hy').ne
      · exact absurd heq (hhead x hx').ne'
      · exact ih hasc.tail hx' hy'

/-- The first element has the smallest key. -/
theorem Ascending.head_le {list : List β} (hasc : Ascending key list) {x : β}
    (hhead : list.head? = some x) : ∀ y ∈ list, key x ≤ key y := by
  obtain ⟨rest, rfl⟩ := List.head?_eq_some_iff.mp hhead
  intro y hy
  rcases List.mem_cons.mp hy with rfl | hrest
  · exact le_rfl
  · exact ((List.pairwise_cons.mp hasc).1 y hrest).le

/-- The last element has the largest key. -/
theorem Ascending.le_last {list : List β} (hasc : Ascending key list) {x : β}
    (hlast : list.getLast? = some x) : ∀ y ∈ list, key y ≤ key x := by
  obtain ⟨front, rfl⟩ := List.getLast?_eq_some_iff.mp hlast
  intro y hy
  rcases List.mem_append.mp hy with hfront | hsingle
  · exact (hasc.lt_split y hfront).le
  · rw [List.mem_singleton.mp hsingle]

/-- Two ascending lists with the same elements are equal. -/
theorem Ascending.eq_of_mem_iff {first second : List β} (hfirst : Ascending key first)
    (hsecond : Ascending key second) (hmem : ∀ x, x ∈ first ↔ x ∈ second) : first = second := by
  have hnodup : ∀ {list : List β}, Ascending key list → list.Nodup := fun hasc =>
    hasc.imp fun hlt heq => hlt.ne (congrArg key heq)
  have hperm : first.Perm second :=
    (List.perm_ext_iff_of_nodup (hnodup hfirst) (hnodup hsecond)).mpr hmem
  refine hperm.eq_of_pairwise ?_ hfirst hsecond
  intro x y _ _ hxy hyx
  exact absurd hxy hyx.asymm

/-! ## Insertion -/

theorem eq_or_mem_of_mem_insertKey {x y : β} {list : List β} (hy : y ∈ insertKey key x list) :
    y = x ∨ y ∈ list := by
  induction list with
  | nil => simpa [insertKey] using hy
  | cons z rest ih =>
      unfold insertKey at hy
      split_ifs at hy
      · exact List.mem_cons.mp hy
      · rcases List.mem_cons.mp hy with rfl | hrest
        · exact Or.inr List.mem_cons_self
        · exact (ih hrest).imp_right (List.mem_cons_of_mem z)
      · exact Or.inr hy

/-- A new key is inserted. -/
theorem self_mem_insertKey {x : β} {list : List β} (hnew : ∀ y ∈ list, key y ≠ key x) :
    x ∈ insertKey key x list := by
  induction list with
  | nil => simp [insertKey]
  | cons z rest ih =>
      unfold insertKey
      split_ifs with hlt hgt
      · exact List.mem_cons_self
      · exact List.mem_cons_of_mem z (ih fun y hy => hnew y (List.mem_cons_of_mem z hy))
      · exact absurd (le_antisymm (not_lt.mp hlt) (not_lt.mp hgt)) (hnew z List.mem_cons_self)

/-- A present key leaves the list unchanged. -/
theorem insertKey_eq_self {x y : β} {list : List β} (hasc : Ascending key list)
    (hy : y ∈ list) (heq : key y = key x) : insertKey key x list = list := by
  induction list with
  | nil => simp at hy
  | cons z rest ih =>
      have hhead := (List.pairwise_cons.mp hasc).1
      rcases List.mem_cons.mp hy with rfl | hrest
      · simp [insertKey, heq]
      · have hlt : key z < key x := heq ▸ hhead y hrest
        rw [insertKey, if_neg hlt.asymm, if_pos hlt, ih hasc.tail hrest]

theorem ascending_insertKey {x : β} {list : List β} (hasc : Ascending key list) :
    Ascending key (insertKey key x list) := by
  induction list with
  | nil => exact List.pairwise_singleton _ x
  | cons z rest ih =>
      have hhead := (List.pairwise_cons.mp hasc).1
      unfold insertKey
      split_ifs with hlt hgt
      · refine List.pairwise_cons.mpr ⟨?_, hasc⟩
        intro y hy
        rcases List.mem_cons.mp hy with rfl | hrest
        · exact hlt
        · exact hlt.trans (hhead y hrest)
      · refine List.pairwise_cons.mpr ⟨?_, ih hasc.tail⟩
        intro y hy
        rcases eq_or_mem_of_mem_insertKey hy with rfl | hrest
        · exact hgt
        · exact hhead y hrest
      · exact hasc

/-- A key below the split element is inserted before it. -/
theorem insertKey_append_of_lt {x y : β} {first second : List β} (hlt : key x < key y) :
    insertKey key x (first ++ y :: second) = insertKey key x first ++ y :: second := by
  induction first with
  | nil => simp [insertKey, hlt]
  | cons z rest ih =>
      simp only [List.cons_append, insertKey]
      split_ifs <;> simp [ih]

/-- A key above the split element is inserted after it. -/
theorem insertKey_append_of_gt {x y : β} {first second : List β}
    (hasc : Ascending key (first ++ y :: second)) (hgt : key y < key x) :
    insertKey key x (first ++ y :: second) = first ++ y :: insertKey key x second := by
  induction first with
  | nil => simp [insertKey, hgt, hgt.asymm]
  | cons z rest ih =>
      have hz : key z < key x := (hasc.lt_split z List.mem_cons_self).trans hgt
      simp only [List.cons_append, insertKey, if_neg hz.asymm, if_pos hz]
      rw [ih hasc.tail]

/-- A new key splits the list into the smaller and the larger keys. -/
theorem insertKey_eq_append {x : β} {list : List β} (hasc : Ascending key list)
    (hnew : ∀ y ∈ list, key y ≠ key x) :
    ∃ before after, list = before ++ after ∧ insertKey key x list = before ++ x :: after ∧
      (∀ y ∈ before, key y < key x) ∧ ∀ y ∈ after, key x < key y := by
  induction list with
  | nil => exact ⟨[], [], rfl, rfl, by simp, by simp⟩
  | cons z rest ih =>
      have hhead := (List.pairwise_cons.mp hasc).1
      unfold insertKey
      split_ifs with hlt hgt
      · refine ⟨[], z :: rest, rfl, rfl, by simp, ?_⟩
        intro y hy
        rcases List.mem_cons.mp hy with rfl | hrest
        · exact hlt
        · exact hlt.trans (hhead y hrest)
      · obtain ⟨before, after, hlist, hinsert, hbefore, hafter⟩ :=
          ih hasc.tail fun y hy => hnew y (List.mem_cons_of_mem z hy)
        refine ⟨z :: before, after, by rw [hlist]; rfl, by rw [hinsert]; rfl, ?_, hafter⟩
        intro y hy
        rcases List.mem_cons.mp hy with rfl | hrest
        · exact hgt
        · exact hbefore y hrest
      · exact absurd (le_antisymm (not_lt.mp hlt) (not_lt.mp hgt)) (hnew z List.mem_cons_self)

/-! ## Erasure -/

theorem ascending_eraseKey {k : κ} {list : List β} (hasc : Ascending key list) :
    Ascending key (eraseKey key k list) :=
  hasc.filter _

theorem eraseKey_eq_self {k : κ} {list : List β} (hnone : ∀ y ∈ list, key y ≠ k) :
    eraseKey key k list = list :=
  List.filter_eq_self.mpr fun y hy => by simpa using hnone y hy

/-- A key below the split element can only occur before it. -/
theorem eraseKey_append_of_lt {y : β} {k : κ} {first second : List β}
    (hasc : Ascending key (first ++ y :: second)) (hlt : k < key y) :
    eraseKey key k (first ++ y :: second) = eraseKey key k first ++ y :: second := by
  have hsecond : eraseKey key k (y :: second) = y :: second := by
    apply eraseKey_eq_self
    intro x hx
    rcases List.mem_cons.mp hx with rfl | hx'
    · exact hlt.ne'
    · exact (hlt.trans (hasc.split_lt x hx')).ne'
  rw [eraseKey, List.filter_append, ← eraseKey, ← eraseKey, hsecond]

/-- A key above the split element can only occur after it. -/
theorem eraseKey_append_of_gt {y : β} {k : κ} {first second : List β}
    (hasc : Ascending key (first ++ y :: second)) (hgt : key y < k) :
    eraseKey key k (first ++ y :: second) = first ++ y :: eraseKey key k second := by
  have hfirst : eraseKey key k first = first := by
    apply eraseKey_eq_self
    intro x hx
    exact ((hasc.lt_split x hx).trans hgt).ne
  rw [eraseKey, List.filter_append, ← eraseKey, ← eraseKey, hfirst, eraseKey,
    List.filter_cons_of_pos (by simpa using hgt.ne), ← eraseKey]

/-- Erasing the key of the split element drops exactly that element. -/
theorem eraseKey_append_self {y : β} {first second : List β}
    (hasc : Ascending key (first ++ y :: second)) :
    eraseKey key (key y) (first ++ y :: second) = first ++ second := by
  have hfirst : eraseKey key (key y) first = first :=
    eraseKey_eq_self fun x hx => (hasc.lt_split x hx).ne
  have hsecond : eraseKey key (key y) second = second :=
    eraseKey_eq_self fun x hx => (hasc.split_lt x hx).ne'
  rw [eraseKey, List.filter_append, ← eraseKey, ← eraseKey, hfirst, eraseKey,
    List.filter_cons_of_neg (by simp), ← eraseKey, hsecond]

end KeyedList
