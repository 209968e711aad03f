import Mathlib.Data.List.Basic
import Mathlib.Logic.Function.Basic

/-! # Ring buffers

A ring of `size` slots with a head and a tail index, both below `size`. The
occupied slots start at the head and end before the tail, wrapping around at the
end of the array; one slot always stays free, so that equal indices mean empty.
-/

namespace QuantTrading

namespace RingBuffer

variable {β : Type*}

/-- The number of occupied slots. -/
def occupied (size head tail : Nat) : Nat :=
  (tail + size - head) % size

/-- The occupied slots from the head on. -/
def contents (size : Nat) (slots : Nat → β) (head tail : Nat) : List β :=
  (List.range (occupied size head tail)).map fun offset => slots ((head + offset) % size)

@[simp] theorem length_contents (size : Nat) (slots : Nat → β) (head tail : Nat) :
    (contents size slots head tail).length = occupied size head tail := by
  simp [contents]

/-- The index after `index`. -/
theorem next_eq {size index : Nat} (hindex : index < size) :
    (index + 1) % size = if index + 1 = size then 0 else index + 1 := by
  split_ifs with hlast
  · rw [hlast, Nat.mod_self]
  · exact Nat.mod_eq_of_lt (by omega)

theorem next_lt {size : Nat} (hsize : 0 < size) (index : Nat) : (index + 1) % size < size :=
  Nat.mod_lt _ hsize

variable {size head tail : Nat}

theorem occupied_eq (hhead : head < size) (htail : tail < size) :
    occupied size head tail = if head ≤ tail then tail - head else tail + size - head := by
  unfold occupied
  split_ifs with hle
  · rw [Nat.sub_add_comm hle, Nat.add_mod_right]
    exact Nat.mod_eq_of_lt (by omega)
  · exact Nat.mod_eq_of_lt (by omega)

/-- One slot always stays free. -/
theorem occupied_lt (hhead : head < size) (htail : tail < size) :
    occupied size head tail < size := by
  rw [occupied_eq hhead htail]
  split_ifs <;> omega

/-- The test for a full ring. -/
theorem next_eq_head_iff (hhead : head < size) (htail : tail < size) :
    (tail + 1) % size = head ↔ occupied size head tail = size - 1 := by
  rw [occupied_eq hhead htail, next_eq htail]
  split_ifs <;> omega

/-- The test for an empty ring. -/
theorem head_eq_tail_iff (hhead : head < size) (htail : tail < size) :
    head = tail ↔ occupied size head tail = 0 := by
  rw [occupied_eq hhead htail]
  split_ifs <;> omega

/-- The slot at an offset behind the head. -/
theorem slot_eq (hhead : head < size) {offset : Nat} (hoffset : offset < size) :
    (head + offset) % size = if head + offset < size then head + offset
      else head + offset - size := by
  split_ifs with hlt
  · exact Nat.mod_eq_of_lt hlt
  · rw [Nat.mod_eq_sub_mod (by omega)]
    exact Nat.mod_eq_of_lt (by omega)

theorem contents_of_empty (slots : Nat → β) (hhead : head < size) :
    contents size slots head head = [] := by
  rw [contents, (head_eq_tail_iff hhead hhead).mp rfl]
  rfl

/-- Writing the slot at the tail of a ring that is not full appends to it. -/
theorem contents_push (hhead : head < size) (htail : tail < size)
    (hroom : (tail + 1) % size ≠ head) (slots : Nat → β) (x : β) :
    contents size (Function.update slots tail x) head ((tail + 1) % size) =
      contents size slots head tail ++ [x] := by
  have hsize : 0 < size := by omega
  have hnext := next_lt hsize tail
  have hoccupied : occupied size head ((tail + 1) % size) = occupied size head tail + 1 := by
    rw [occupied_eq hhead hnext, occupied_eq hhead htail]
    rw [next_eq htail] at hroom ⊢
    split_ifs at hroom ⊢ <;> omega
  have hlt := occupied_lt hhead htail
  have heq := occupied_eq hhead htail
  rw [contents, hoccupied, List.range_succ, List.map_append, List.map_singleton, contents]
  congr 1
  · refine List.map_congr_left fun offset hoffset => Function.update_of_ne ?_ _ _
    rw [List.mem_range] at hoffset
    rw [slot_eq hhead (by omega)]
    split_ifs at heq ⊢ <;> omega
  · have hlast : (head + occupied size head tail) % size = tail := by
      rw [slot_eq hhead hlt]
      split_ifs at heq ⊢ <;> omega
    rw [hlast, Function.update_self]

/-- Moving the head of a ring that is not empty takes the first slot off. -/
theorem contents_pop (hhead : head < size) (htail : tail < size) (hne : head ≠ tail)
    (slots : Nat → β) :
    contents size slots head tail =
      slots head :: contents size slots ((head + 1) % size) tail := by
  have hsize : 0 < size := by omega
  have hnext := next_lt hsize head
  have hoccupied : occupied size head tail = occupied size ((head + 1) % size) tail + 1 := by
    rw [occupied_eq hnext htail, occupied_eq hhead htail, next_eq hhead]
    split_ifs <;> omega
  rw [contents, hoccupied, List.range_succ_eq_map, List.map_cons, contents, List.map_map]
  congr 1
  · rw [Nat.add_zero, Nat.mod_eq_of_lt hhead]
  · apply List.map_congr_left
    intro offset _
    have hslot : (head + (offset + 1)) % size = ((head + 1) % size + offset) % size := by
      rw [Nat.mod_add_mod]
      congr 1
      omega
    exact congrArg slots hslot

end RingBuffer

end QuantTrading
