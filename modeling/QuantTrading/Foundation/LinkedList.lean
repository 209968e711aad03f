import Mathlib.Data.List.Basic
import Mathlib.Data.List.Nodup
import Mathlib.Data.List.Perm.Subperm
import Mathlib.Data.List.Range
import Mathlib.Logic.Function.Basic

/-! # Linked lists in memory

Cells at addresses, each with a value and the address of the next one. A loop over a
list follows the addresses and fails when it reads a cell that was never allocated or
was freed; it is written with fuel, since nothing keeps the addresses of a memory from
going round. A segment says which nodes a loop meets between two pointers.
-/

namespace LinkedList

variable {β : Type*}

/-- A cell of a list. -/
structure Cell (β : Type*) where
  value : β
  next : Option Nat

/-- The allocated cells, and the number of addresses given out so far. -/
structure Memory (β : Type*) where
  cells : Nat → Option (Cell β)
  size : Nat

namespace Memory

/-- Memory before anything is allocated. -/
def empty : Memory β where
  cells := fun _ => none
  size := 0

/-- Allocate a cell. -/
def alloc (memory : Memory β) (cell : Cell β) : Memory β where
  cells := Function.update memory.cells memory.size (some cell)
  size := memory.size + 1

/-- Overwrite an allocated cell. -/
def write (memory : Memory β) (address : Nat) (cell : Cell β) : Memory β :=
  { memory with cells := Function.update memory.cells address (some cell) }

/-- Free a cell. -/
def free (memory : Memory β) (address : Nat) : Memory β :=
  { memory with cells := Function.update memory.cells address none }

@[simp] theorem write_cells_self (memory : Memory β) (address : Nat) (cell : Cell β) :
    (memory.write address cell).cells address = some cell :=
  Function.update_self ..

theorem write_cells_of_ne (memory : Memory β) {address other : Nat} (hne : other ≠ address)
    (cell : Cell β) : (memory.write address cell).cells other = memory.cells other :=
  Function.update_of_ne hne ..

theorem free_cells_of_ne (memory : Memory β) {address other : Nat} (hne : other ≠ address) :
    (memory.free address).cells other = memory.cells other :=
  Function.update_of_ne hne ..

end Memory

/-! ## Segments -/

/-- Following the cells from `start` one meets these nodes, and then the pointer `stop`. -/
def Segment (memory : Memory β) : Option Nat → List (Nat × β) → Option Nat → Prop
  | start, [], stop => start = stop
  | start, node :: rest, stop => start = some node.1 ∧
      ∃ next, memory.cells node.1 = some ⟨node.2, next⟩ ∧ Segment memory next rest stop

/-- The addresses of some nodes. -/
def addresses (nodes : List (Nat × β)) : List Nat :=
  nodes.map Prod.fst

theorem segment_append {memory : Memory β} {start stop : Option Nat}
    {first second : List (Nat × β)} :
    Segment memory start (first ++ second) stop ↔
      ∃ middle, Segment memory start first middle ∧ Segment memory middle second stop := by
  induction first generalizing start with
  | nil => simp [Segment]
  | cons node rest ih =>
      simp only [List.cons_append, Segment, ih]
      constructor
      · rintro ⟨hstart, next, hcell, middle, hrest, hsecond⟩
        exact ⟨middle, ⟨hstart, next, hcell, hrest⟩, hsecond⟩
      · rintro ⟨middle, ⟨hstart, next, hcell, hrest⟩, hsecond⟩
        exact ⟨hstart, next, hcell, middle, hrest, hsecond⟩

/-- A segment depends on its own cells only. -/
theorem Segment.congr {memory memory' : Memory β} {start stop : Option Nat}
    {nodes : List (Nat × β)} (hsegment : Segment memory start nodes stop)
    (hsame : ∀ address ∈ addresses nodes, memory'.cells address = memory.cells address) :
    Segment memory' start nodes stop := by
  induction nodes generalizing start with
  | nil => exact hsegment
  | cons node rest ih =>
      obtain ⟨hstart, next, hcell, hrest⟩ := hsegment
      refine ⟨hstart, next, ?_, ?_⟩
      · rw [hsame node.1 List.mem_cons_self, hcell]
      · exact ih hrest fun address haddress => hsame address (List.mem_cons_of_mem _ haddress)

/-- Redirecting the last cell of a segment. -/
theorem Segment.redirect {memory : Memory β} {start stop : Option Nat} {first : List (Nat × β)}
    {last : Nat × β} (hsegment : Segment memory start (first ++ [last]) stop)
    (hlast : last.1 ∉ addresses first) (target : Option Nat) :
    Segment (memory.write last.1 ⟨last.2, target⟩) start (first ++ [last]) target := by
  obtain ⟨middle, hfirst, hmiddle, _⟩ := segment_append.mp hsegment
  refine segment_append.mpr ⟨middle, hfirst.congr fun address haddress => ?_, hmiddle, target,
    memory.write_cells_self .., rfl⟩
  exact memory.write_cells_of_ne (ne_of_mem_of_not_mem haddress hlast) _

/-- The pointer to the first of some nodes. -/
def first (nodes : List (Nat × β)) : Option Nat :=
  (addresses nodes).head?

theorem Segment.start_eq {memory : Memory β} {start : Option Nat} {nodes : List (Nat × β)}
    (hsegment : Segment memory start nodes none) : start = first nodes := by
  cases nodes with
  | nil => exact hsegment
  | cons node rest => exact hsegment.1

/-- A list in memory: its nodes from the head to a null pointer, at different addresses. -/
structure Holds (memory : Memory β) (head : Option Nat) (nodes : List (Nat × β)) : Prop where
  segment : Segment memory head nodes none
  nodup : (addresses nodes).Nodup
  allocated : ∀ address ∈ addresses nodes, address < memory.size

namespace Holds

variable {memory : Memory β} {head : Option Nat} {nodes : List (Nat × β)}

theorem empty : Holds (Memory.empty : Memory β) none [] :=
  ⟨rfl, List.nodup_nil, nofun⟩

/-- There are no more nodes than addresses. -/
theorem length_le (hholds : Holds memory head nodes) : nodes.length ≤ memory.size := by
  have hsubset : addresses nodes ⊆ List.range memory.size := fun address haddress =>
    List.mem_range.mpr (hholds.allocated address haddress)
  simpa [addresses] using (List.subperm_of_subset hholds.nodup hsubset).length_le

/-- A cell in front of the list. -/
theorem push (hholds : Holds memory head nodes) (value : β) :
    Holds (memory.alloc ⟨value, head⟩) (some memory.size) ((memory.size, value) :: nodes) := by
  have hfresh : memory.size ∉ addresses nodes := fun hmem =>
    absurd (hholds.allocated memory.size hmem) (lt_irrefl _)
  refine ⟨⟨rfl, head, Function.update_self .., ?_⟩, ?_, ?_⟩
  · apply hholds.segment.congr
    intro address haddress
    exact Function.update_of_ne (ne_of_mem_of_not_mem haddress hfresh) ..
  · exact List.nodup_cons.mpr ⟨hfresh, hholds.nodup⟩
  · intro address haddress
    rcases List.mem_cons.mp haddress with rfl | hold
    · exact Nat.lt_succ_self _
    · exact (hholds.allocated address hold).trans (Nat.lt_succ_self _)

/-- The addresses around a node, which are not its own. -/
theorem other_addresses {done rest : List (Nat × β)} {node : Nat × β}
    (hholds : Holds memory head (done ++ node :: rest)) :
    node.1 ∉ addresses (done ++ rest) ∧ (addresses (done ++ rest)).Nodup := by
  have hnodup := hholds.nodup
  rw [addresses, List.map_append, List.map_cons, List.nodup_middle, List.nodup_cons,
    ← List.map_append] at hnodup
  exact hnodup

/-- The cell of a node. -/
theorem cells_eq {done rest : List (Nat × β)} {node : Nat × β}
    (hholds : Holds memory head (done ++ node :: rest)) :
    memory.cells node.1 = some ⟨node.2, first rest⟩ := by
  obtain ⟨_, _, _, next, hcell, hrest⟩ := segment_append.mp hholds.segment
  rw [hcell, hrest.start_eq]

/-- Writing the value of one cell. -/
theorem write {done rest : List (Nat × β)} {node : Nat × β}
    (hholds : Holds memory head (done ++ node :: rest)) (value : β) :
    Holds (memory.write node.1 ⟨value, first rest⟩) head (done ++ (node.1, value) :: rest) := by
  obtain ⟨middle, hdone, hmiddle, next, _, hrest⟩ := segment_append.mp hholds.segment
  rw [hrest.start_eq] at hrest
  have hother : ∀ address ∈ addresses (done ++ rest),
      (memory.write node.1 ⟨value, first rest⟩).cells address = memory.cells address :=
    fun address haddress =>
      memory.write_cells_of_ne (ne_of_mem_of_not_mem haddress hholds.other_addresses.1) _
  rw [addresses, List.map_append] at hother
  refine ⟨segment_append.mpr ⟨middle, ?_, hmiddle, first rest, ?_, ?_⟩, ?_, ?_⟩
  · exact hdone.congr fun address haddress => hother address (List.mem_append_left _ haddress)
  · exact memory.write_cells_self ..
  · exact hrest.congr fun address haddress => hother address (List.mem_append_right _ haddress)
  · simpa [addresses] using hholds.nodup
  · intro address haddress
    apply hholds.allocated address
    simpa [addresses] using haddress

end Holds

/-! ## Loops -/

/-- The first cell whose value passes a test. -/
def search (test : β → Bool) (memory : Memory β) :
    Nat → Option Nat → Option (Option (Nat × β))
  | _, none => some none
  | 0, some _ => none
  | fuel + 1, some address =>
      match memory.cells address with
      | none => none
      | some cell =>
          if test cell.value then some (some (address, cell.value))
          else search test memory fuel cell.next

theorem search_eq {test : β → Bool} {memory : Memory β} {start : Option Nat}
    {nodes : List (Nat × β)} (hsegment : Segment memory start nodes none) {fuel : Nat}
    (hfuel : nodes.length ≤ fuel) :
    search test memory fuel start = some (nodes.find? fun node => test node.2) := by
  induction nodes generalizing start fuel with
  | nil =>
      rw [show start = none from hsegment]
      cases fuel <;> rfl
  | cons node rest ih =>
      obtain ⟨rfl, next, hcell, hrest⟩ := hsegment
      cases fuel with
      | zero => exact absurd hfuel (by simp)
      | succ fuel =>
          rw [search, hcell, List.find?_cons]
          dsimp only
          cases htest : test node.2 with
          | true => rfl
          | false => exact ih hrest (Nat.le_of_succ_le_succ hfuel)

/-- Walk over the values while a condition on the result so far holds. -/
def walk {σ : Type*} (go : σ → Bool) (step : σ → β → Option σ) (memory : Memory β) :
    Nat → Option Nat → σ → Option σ
  | _, none, result => some result
  | 0, some _, _ => none
  | fuel + 1, some address, result =>
      if go result then
        match memory.cells address with
        | none => none
        | some cell =>
            match step result cell.value with
            | none => none
            | some result => walk go step memory fuel cell.next result
      else some result

/-- The same walk over a list. -/
def walkList {σ : Type*} (go : σ → Bool) (step : σ → β → Option σ) : List β → σ → Option σ
  | [], result => some result
  | value :: rest, result =>
      if go result then
        match step result value with
        | none => none
        | some result => walkList go step rest result
      else some result

theorem walk_eq {σ : Type*} {go : σ → Bool} {step : σ → β → Option σ} {memory : Memory β}
    {start : Option Nat} {nodes : List (Nat × β)} (hsegment : Segment memory start nodes none)
    {fuel : Nat} (hfuel : nodes.length ≤ fuel) (result : σ) :
    walk go step memory fuel start result = walkList go step (nodes.map Prod.snd) result := by
  induction nodes generalizing start fuel result with
  | nil =>
      rw [show start = none from hsegment]
      cases fuel <;> rfl
  | cons node rest ih =>
      obtain ⟨rfl, next, hcell, hrest⟩ := hsegment
      cases fuel with
      | zero => exact absurd hfuel (by simp)
      | succ fuel =>
          rw [walk, List.map_cons, walkList, hcell]
          dsimp only
          split_ifs
          · cases step result node.2 with
            | none => rfl
            | some result => exact ih hrest (Nat.le_of_succ_le_succ hfuel) result
          · rfl

/-- Change the value of every cell, by its index in the list. -/
def updateAll (change : Nat → β → β) : Nat → Memory β → Option Nat → Nat → Option (Memory β)
  | _, memory, none, _ => some memory
  | 0, _, some _, _ => none
  | fuel + 1, memory, some address, index =>
      match memory.cells address with
      | none => none
      | some cell =>
          updateAll change fuel
            (memory.write address { cell with value := change index cell.value }) cell.next
            (index + 1)

theorem updateAll_spec (change : Nat → β → β) {memory : Memory β} {head : Option Nat}
    (done rest : List (Nat × β)) (hholds : Holds memory head (done ++ rest)) {fuel : Nat}
    (index : Nat) (hfuel : rest.length ≤ fuel) :
    ∃ memory', updateAll change fuel memory (first rest) index = some memory' ∧
      Holds memory' head
        (done ++ rest.mapIdx fun offset node => (node.1, change (index + offset) node.2)) := by
  induction rest generalizing memory done fuel index with
  | nil =>
      refine ⟨memory, ?_, hholds⟩
      cases fuel <;> rfl
  | cons node rest ih =>
      cases fuel with
      | zero => exact absurd hfuel (by simp)
      | succ fuel =>
          have hwritten := hholds.write (change index node.2)
          rw [List.append_cons] at hwritten
          obtain ⟨memory', hloop, hupdated⟩ :=
            ih _ hwritten (index + 1) (Nat.le_of_succ_le_succ hfuel)
          refine ⟨memory', ?_, ?_⟩
          · rw [show first (node :: rest) = some node.1 from rfl, updateAll, hholds.cells_eq]
            exact hloop
          · rw [List.mapIdx_cons, List.append_cons]
            simpa [Nat.add_assoc, Nat.add_comm 1] using hupdated

/-! ## Unlinking -/

/-- Take a cell out of a list, behind the cell `prev` or at the head. -/
def unlink (memory : Memory β) (head prev : Option Nat) (address : Nat) (next : Option Nat) :
    Option (Memory β × Option Nat) :=
  match prev with
  | none => some (memory.free address, next)
  | some before =>
      match memory.cells before with
      | none => none
      | some cell => some ((memory.write before { cell with next := next }).free address, head)

/-- Unlink the first cell whose value passes a test; whether there was one. -/
def unlinkFirst (test : β → Bool) (memory : Memory β) (head : Option Nat) :
    Nat → Option Nat → Option Nat → Option (Bool × Memory β × Option Nat)
  | _, _, none => some (false, memory, head)
  | 0, _, some _ => none
  | fuel + 1, prev, some address =>
      match memory.cells address with
      | none => none
      | some cell =>
          if test cell.value then
            (unlink memory head prev address cell.next).map fun after => (true, after)
          else unlinkFirst test memory head fuel (some address) cell.next

/-- Unlink every cell whose value passes a test; how many there were. -/
def unlinkAll (test : β → Bool) :
    Nat → Memory β → Option Nat → Option Nat → Option Nat → Option (Nat × Memory β × Option Nat)
  | _, memory, head, _, none => some (0, memory, head)
  | 0, _, _, _, some _ => none
  | fuel + 1, memory, head, prev, some address =>
      match memory.cells address with
      | none => none
      | some cell =>
          if test cell.value then
            match unlink memory head prev address cell.next with
            | none => none
            | some (memory, head) =>
                (unlinkAll test fuel memory head prev cell.next).map fun after =>
                  (after.1 + 1, after.2)
          else unlinkAll test fuel memory head (some address) cell.next

/-- The pointer to the last of some nodes. -/
def last (nodes : List (Nat × β)) : Option Nat :=
  (addresses nodes).getLast?

@[simp] theorem last_concat (nodes : List (Nat × β)) (node : Nat × β) :
    last (nodes ++ [node]) = some node.1 := by
  simp [last, addresses]

/-- Freeing a cell does not touch a list that does not go through it. -/
theorem Holds.free {memory : Memory β} {head : Option Nat} {nodes : List (Nat × β)}
    (hholds : Holds memory head nodes) {address : Nat} (haddress : address ∉ addresses nodes) :
    Holds (memory.free address) head nodes := by
  refine ⟨hholds.segment.congr fun other hother => ?_, hholds.nodup, hholds.allocated⟩
  exact memory.free_cells_of_ne (ne_of_mem_of_not_mem hother haddress)

theorem Holds.unlink {memory : Memory β} {head : Option Nat} {done rest : List (Nat × β)}
    {node : Nat × β} (hholds : Holds memory head (done ++ node :: rest)) :
    ∃ memory' head', unlink memory head (last done) node.1 (first rest) = some (memory', head') ∧
      Holds memory' head' (done ++ rest) := by
  obtain ⟨hfresh, hnodup⟩ := hholds.other_addresses
  have hallocated : ∀ address ∈ addresses (done ++ rest), address < memory.size := by
    intro address haddress
    apply hholds.allocated address
    simp only [addresses, List.map_append, List.map_cons, List.mem_append, List.mem_cons]
      at haddress ⊢
    exact haddress.imp_right Or.inr
  obtain ⟨middle, hdone, _, next, _, hrest⟩ := segment_append.mp hholds.segment
  rw [hrest.start_eq] at hrest
  rcases done.eq_nil_or_concat' with rfl | ⟨before, previous, rfl⟩
  · -- the head moves on
    refine ⟨memory.free node.1, first rest, rfl, Holds.free ⟨hrest, hnodup, ?_⟩ hfresh⟩
    exact hallocated
  · -- the cell before is redirected
    have hsplit : Holds memory head (before ++ previous :: node :: rest) := by
      rwa [List.append_assoc, List.singleton_append] at hholds
    have hprevious : previous.1 ∉ addresses before ∧ previous.1 ∉ addresses (node :: rest) := by
      have hother := hsplit.other_addresses.1
      rw [addresses, List.map_append, List.mem_append, not_or] at hother
      exact hother
    have hredirected : Holds (memory.write previous.1 ⟨previous.2, first rest⟩) head
        (before ++ [previous] ++ rest) := by
      refine ⟨segment_append.mpr ⟨first rest, hdone.redirect hprevious.1 _, ?_⟩, hnodup,
        hallocated⟩
      refine hrest.congr fun address haddress => memory.write_cells_of_ne ?_ _
      exact ne_of_mem_of_not_mem (List.mem_cons_of_mem _ haddress) hprevious.2
    refine ⟨_, head, ?_, hredirected.free hfresh⟩
    rw [last_concat, LinkedList.unlink, hsplit.cells_eq]

theorem unlinkFirst_spec (test : β → Bool) {memory : Memory β} {head : Option Nat}
    (done rest : List (Nat × β)) (hholds : Holds memory head (done ++ rest)) {fuel : Nat}
    (hfuel : rest.length ≤ fuel) :
    ∃ memory' head', unlinkFirst test memory head fuel (last done) (first rest) =
        some (rest.any fun node => test node.2, memory', head') ∧
      Holds memory' head' (done ++ rest.eraseP fun node => test node.2) := by
  induction rest generalizing done fuel with
  | nil =>
      refine ⟨memory, head, ?_, hholds⟩
      cases fuel <;> rfl
  | cons node rest ih =>
      cases fuel with
      | zero => exact absurd hfuel (by simp)
      | succ fuel =>
          rw [show first (node :: rest) = some node.1 from rfl, unlinkFirst, hholds.cells_eq,
            List.any_cons, List.eraseP_cons]
          dsimp only
          cases htest : test node.2 with
          | true =>
              obtain ⟨memory', head', hunlink, hafter⟩ := hholds.unlink
              refine ⟨memory', head', ?_, hafter⟩
              rw [if_pos rfl, hunlink]
              rfl
          | false =>
              rw [List.append_cons] at hholds
              obtain ⟨memory', head', hloop, hafter⟩ :=
                ih _ hholds (Nat.le_of_succ_le_succ hfuel)
              rw [last_concat] at hloop
              refine ⟨memory', head', ?_, ?_⟩
              · simpa using hloop
              · simpa using hafter

theorem unlinkAll_spec (test : β → Bool) {memory : Memory β} {head : Option Nat}
    (done rest : List (Nat × β)) (hholds : Holds memory head (done ++ rest)) {fuel : Nat}
    (hfuel : rest.length ≤ fuel) :
    ∃ memory' head', unlinkAll test fuel memory head (last done) (first rest) =
        some (rest.countP fun node => test node.2, memory', head') ∧
      Holds memory' head' (done ++ rest.filter fun node => !test node.2) := by
  induction rest generalizing memory head done fuel with
  | nil =>
      refine ⟨memory, head, ?_, hholds⟩
      cases fuel <;> rfl
  | cons node rest ih =>
      cases fuel with
      | zero => exact absurd hfuel (by simp)
      | succ fuel =>
          have hless : rest.length ≤ fuel := Nat.le_of_succ_le_succ hfuel
          rw [show first (node :: rest) = some node.1 from rfl, unlinkAll, hholds.cells_eq,
            List.countP_cons, List.filter_cons]
          dsimp only
          cases htest : test node.2 with
          | true =>
              obtain ⟨memory₁, head₁, hunlink, hkept⟩ := hholds.unlink
              obtain ⟨memory', head', hloop, hafter⟩ := ih done hkept hless
              refine ⟨memory', head', ?_, hafter⟩
              rw [if_pos rfl, hunlink]
              dsimp only
              rw [hloop]
              rfl
          | false =>
              rw [List.append_cons] at hholds
              obtain ⟨memory', head', hloop, hafter⟩ := ih _ hholds hless
              rw [last_concat] at hloop
              refine ⟨memory', head', ?_, ?_⟩
              · simpa using hloop
              · simpa using hafter

/-! ## Whole lists -/

namespace Holds

variable {memory : Memory β} {head : Option Nat} {nodes : List (Nat × β)}

theorem search (hholds : Holds memory head nodes) (test : β → Bool) :
    LinkedList.search test memory memory.size head = some (nodes.find? fun node => test node.2) :=
  search_eq hholds.segment hholds.length_le

theorem walk (hholds : Holds memory head nodes) {σ : Type*} (go : σ → Bool)
    (step : σ → β → Option σ) (result : σ) :
    LinkedList.walk go step memory memory.size head result =
      walkList go step (nodes.map Prod.snd) result :=
  walk_eq hholds.segment hholds.length_le result

theorem updateAll (hholds : Holds memory head nodes) (change : Nat → β → β) :
    ∃ memory', LinkedList.updateAll change memory.size memory head 0 = some memory' ∧
      Holds memory' head (nodes.mapIdx fun index node => (node.1, change index node.2)) := by
  obtain ⟨memory', hloop, hafter⟩ := updateAll_spec change [] nodes hholds 0 hholds.length_le
  rw [← hholds.segment.start_eq] at hloop
  refine ⟨memory', hloop, ?_⟩
  simpa using hafter

theorem unlinkFirst (hholds : Holds memory head nodes) (test : β → Bool) :
    ∃ memory' head', LinkedList.unlinkFirst test memory head memory.size none head =
        some (nodes.any fun node => test node.2, memory', head') ∧
      Holds memory' head' (nodes.eraseP fun node => test node.2) := by
  obtain ⟨memory', head', hloop, hafter⟩ :=
    unlinkFirst_spec test [] nodes hholds hholds.length_le
  rw [← hholds.segment.start_eq] at hloop
  exact ⟨memory', head', hloop, hafter⟩

theorem unlinkAll (hholds : Holds memory head nodes) (test : β → Bool) :
    ∃ memory' head', LinkedList.unlinkAll test memory.size memory head none head =
        some (nodes.countP fun node => test node.2, memory', head') ∧
      Holds memory' head' (nodes.filter fun node => !test node.2) := by
  obtain ⟨memory', head', hloop, hafter⟩ :=
    unlinkAll_spec test [] nodes hholds hholds.length_le
  rw [← hholds.segment.start_eq] at hloop
  exact ⟨memory', head', hloop, hafter⟩

end Holds

end LinkedList
