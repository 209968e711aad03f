import Mathlib.Algebra.Group.Defs
import Mathlib.Data.Finmap
import Mathlib.Order.Lattice.Nat

/-! # Programs on a heap and a separation logic for them

A heap is a finite map from addresses to cells. A program on it goes wrong when it
reads, writes or frees a cell that is not allocated. An assertion speaks about a part
of a heap; assertions about separate parts multiply. A triple says that a program,
started in a heap of which one part satisfies the precondition, does not go wrong,
leaves the rest of the heap alone, and ends with a part that satisfies the
postcondition: what it allocated and did not free is in that part. A triple may depend on
whether the allocator ever gives up; on a given heap the program then depends on whether the
allocator refuses memory to this very run of it.
-/

namespace Separation

/-- The allocated cells by address. -/
abbrev Heap (κ : Type) := Finmap fun _ : Nat => κ

/-- A program on a heap, which has no outcome when it goes wrong. -/
abbrev Program (κ α : Type) := StateT (Heap κ) Option α

/-- A memory allocator: it finds a free address or gives up. -/
structure Allocator (κ : Type) where
  choose : Heap κ → Option Nat
  fresh : ∀ heap address, choose heap = some address → address ∉ heap

/-- The allocator gives up on some heap. -/
def Allocator.Fails {κ : Type} (allocator : Allocator κ) : Prop :=
  ∃ heap, allocator.choose heap = none

variable {κ α β : Type}

/-- The allocator that takes the address behind the highest one in use. -/
def Allocator.highest : Allocator κ where
  choose := fun heap => some (heap.keys.sup id + 1)
  fresh := by
    intro heap address hchoose hmem
    cases hchoose
    have hle : heap.keys.sup id + 1 ≤ heap.keys.sup id :=
      Finset.le_sup (f := id) (Finmap.mem_keys.mpr hmem)
    omega

/-! ## Primitive operations -/

namespace Program

/-- Going wrong. -/
def fault : Program κ α := fun _ => none

/-- Read the cell a pointer points to. -/
def load (pointer : Option Nat) : Program κ κ := fun heap =>
  pointer.bind fun address => (heap.lookup address).map fun cell => (cell, heap)

/-- Overwrite the cell a pointer points to. -/
def store (pointer : Option Nat) (cell : κ) : Program κ Unit := fun heap =>
  pointer.bind fun address =>
    (heap.lookup address).map fun _ => ((), heap.insert address cell)

/-- Free the cell a pointer points to. -/
def free (pointer : Option Nat) : Program κ Unit := fun heap =>
  pointer.bind fun address => (heap.lookup address).map fun _ => ((), heap.erase address)

/-- Free a cell, or nothing for a null pointer. -/
def release (pointer : Option Nat) : Program κ Unit :=
  match pointer with
  | none => return ()
  | some address => free (some address)

/-- Allocate a cell; a null pointer when the allocator gives up. -/
def allocate (allocator : Allocator κ) (cell : κ) : Program κ (Option Nat) := fun heap =>
  match allocator.choose heap with
  | none => some (none, heap)
  | some address => some (some address, heap.insert address cell)

end Program

/-! ## Refused allocations -/

/-- The allocator that also finds an address wherever another one gives up. -/
def Allocator.unfailing (allocator : Allocator κ) : Allocator κ where
  choose := fun heap => (allocator.choose heap).or (highest.choose heap)
  fresh := by
    intro heap address hchoose
    rcases Option.or_eq_some_iff.mp hchoose with hown | ⟨_, hhighest⟩
    · exact allocator.fresh heap address hown
    · exact highest.fresh heap address hhighest

theorem Allocator.unfailing_never (allocator : Allocator κ) : ¬ allocator.unfailing.Fails := by
  rintro ⟨heap, hnone⟩
  have hhighest : (highest : Allocator κ).choose heap = none := (Option.or_eq_none_iff.mp hnone).2
  cases hhighest

/-- A program that is started in a heap is refused memory: it would have gone another way if
the allocator had found an address wherever it gave up. -/
def Allocator.Refuses (allocator : Allocator κ) (program : Allocator κ → Program κ α)
    (heap : Heap κ) : Prop :=
  program allocator heap ≠ program allocator.unfailing heap

/-- An allocation is refused when the allocator gives up on the very heap in which it is
asked for. -/
theorem Allocator.refuses_allocate_iff {allocator : Allocator κ} {cell : κ} {heap : Heap κ} :
    allocator.Refuses (Program.allocate · cell) heap ↔ allocator.choose heap = none := by
  unfold Refuses Program.allocate unfailing
  cases hchoose : allocator.choose heap with
  | none => simp [hchoose, highest]
  | some address => simp [hchoose]

/-- An allocator that never gives up refuses no program anything. -/
theorem Allocator.Refuses.fails {allocator : Allocator κ} {program : Allocator κ → Program κ α}
    {heap : Heap κ} (hrefuses : allocator.Refuses program heap) : allocator.Fails := by
  by_contra hnever
  have hsame : allocator.unfailing = allocator := by
    cases allocator with
    | mk choose fresh =>
        have hchoose : (fun heap => (choose heap).or (highest.choose heap)) = choose := by
          funext heap
          cases hfound : choose heap with
          | none => exact absurd ⟨heap, hfound⟩ hnever
          | some address => rfl
        unfold unfailing
        congr
  exact hrefuses (by rw [hsame])

/-! ## Assertions -/

/-- A statement about a part of a heap. -/
def Assertion (κ : Type) := Heap κ → Prop

namespace Assertion

@[ext] theorem ext {first second : Assertion κ} (h : ∀ part, first part ↔ second part) :
    first = second :=
  funext fun part => propext (h part)

/-- The part is one cell. -/
def points (address : Nat) (cell : κ) : Assertion κ :=
  fun part => part = Finmap.singleton address cell

/-- A fact about no part of the heap. -/
def fact (p : Prop) : Assertion κ := fun part => p ∧ part = ∅

/-- One of a family of assertions. -/
def any {ι : Sort*} (family : ι → Assertion κ) : Assertion κ :=
  fun part => ∃ index, family index part

/-- The part is empty. -/
instance : One (Assertion κ) := ⟨fun part => part = ∅⟩

/-- The part splits into two that satisfy one assertion each. -/
instance : Mul (Assertion κ) :=
  ⟨fun p q part => ∃ first second,
    first.Disjoint second ∧ part = first ∪ second ∧ p first ∧ q second⟩

theorem one_apply {part : Heap κ} : (1 : Assertion κ) part ↔ part = ∅ := Iff.rfl

private theorem sep_comm (p q : Assertion κ) : p * q = q * p := by
  have himp : ∀ (p q : Assertion κ) (part : Heap κ), (p * q) part → (q * p) part := by
    rintro p q _ ⟨first, second, hdisjoint, rfl, hp, hq⟩
    exact ⟨second, first, hdisjoint.symm, Finmap.union_comm_of_disjoint hdisjoint, hq, hp⟩
  ext part
  exact ⟨himp p q part, himp q p part⟩

private theorem sep_assoc (p q r : Assertion κ) : p * q * r = p * (q * r) := by
  ext part
  constructor
  · rintro ⟨_, third, hdisjoint, rfl, ⟨first, second, hfirst, rfl, hp, hq⟩, hr⟩
    obtain ⟨hfirst', hsecond'⟩ := (Finmap.disjoint_union_left _ _ _).mp hdisjoint
    exact ⟨first, second ∪ third, (Finmap.disjoint_union_right _ _ _).mpr ⟨hfirst, hfirst'⟩,
      Finmap.union_assoc, hp, second, third, hsecond', rfl, hq, hr⟩
  · rintro ⟨first, _, hdisjoint, rfl, hp, second, third, hsecond, rfl, hq, hr⟩
    obtain ⟨hfirst, hfirst'⟩ := (Finmap.disjoint_union_right _ _ _).mp hdisjoint
    exact ⟨first ∪ second, third, (Finmap.disjoint_union_left _ _ _).mpr ⟨hfirst', hsecond⟩,
      Finmap.union_assoc.symm, ⟨first, second, hfirst, rfl, hp, hq⟩, hr⟩

private theorem one_sep (p : Assertion κ) : 1 * p = p := by
  ext part
  constructor
  · rintro ⟨_, second, _, rfl, rfl, hp⟩
    rwa [Finmap.empty_union]
  · exact fun hp => ⟨∅, part, Finmap.disjoint_empty part, Finmap.empty_union.symm, rfl, hp⟩

/-- Assertions about separate parts form a commutative monoid. -/
instance : CommMonoid (Assertion κ) where
  mul_assoc := sep_assoc
  one_mul := one_sep
  mul_one := fun p => (sep_comm p 1).trans (one_sep p)
  mul_comm := sep_comm

theorem fact_mul_apply {p : Prop} {q : Assertion κ} {part : Heap κ} :
    (fact p * q : Assertion κ) part ↔ p ∧ q part := by
  constructor
  · rintro ⟨_, second, _, rfl, ⟨hp, rfl⟩, hq⟩
    rw [Finmap.empty_union]
    exact ⟨hp, hq⟩
  · rintro ⟨hp, hq⟩
    exact ⟨∅, part, Finmap.disjoint_empty part, Finmap.empty_union.symm, ⟨hp, rfl⟩, hq⟩

/-- A true fact says nothing. -/
theorem fact_of_true {p : Prop} (hp : p) : (fact p : Assertion κ) = 1 := by
  ext part
  exact ⟨fun h => h.2, fun h => ⟨hp, h⟩⟩

theorem any_mul {ι : Sort*} (family : ι → Assertion κ) (q : Assertion κ) :
    any family * q = any fun index => family index * q := by
  ext part
  constructor
  · rintro ⟨first, second, hdisjoint, rfl, ⟨index, hfamily⟩, hq⟩
    exact ⟨index, first, second, hdisjoint, rfl, hfamily, hq⟩
  · rintro ⟨index, first, second, hdisjoint, rfl, hfamily, hq⟩
    exact ⟨first, second, hdisjoint, rfl, ⟨index, hfamily⟩, hq⟩

theorem any_intro {ι : Sort*} {family : ι → Assertion κ} (index : ι) {part : Heap κ}
    (h : family index part) : any family part :=
  ⟨index, h⟩

/-- The factors in another order. -/
theorem rearrange {p q : Assertion κ} (heq : p = q) {part : Heap κ} (hpart : p part) : q part :=
  heq ▸ hpart

/-- Entailments under a frame. -/
theorem mul_mono_left {p q : Assertion κ} (himp : ∀ part, p part → q part)
    (frame : Assertion κ) : ∀ part, (p * frame) part → (q * frame) part := by
  rintro _ ⟨first, second, hdisjoint, rfl, hp, hframe⟩
  exact ⟨first, second, hdisjoint, rfl, himp first hp, hframe⟩

/-- A cell lent out of a part: giving it back restores the part. -/
def lent (whole : Assertion κ) (address : Nat) (cell : κ) : Assertion κ :=
  any fun other : Assertion κ =>
    fact (∀ part, (points address cell * other) part → whole part) *
      (points address cell * other)

theorem lent_intro {whole other : Assertion κ} {address : Nat} {cell : κ}
    (hback : ∀ part, (points address cell * other) part → whole part) {part : Heap κ}
    (hpart : (points address cell * other) part) : lent whole address cell part :=
  any_intro other (fact_mul_apply.mpr ⟨hback, hpart⟩)

theorem lent_mono {whole whole' : Assertion κ} {address : Nat} {cell : κ} {part : Heap κ}
    (hwhole : ∀ part, whole part → whole' part) (hpart : lent whole address cell part) :
    lent whole' address cell part := by
  obtain ⟨other, hother⟩ := hpart
  obtain ⟨hback, hpart⟩ := fact_mul_apply.mp hother
  exact lent_intro (fun part' hpart' => hwhole part' (hback part' hpart')) hpart

/-- The parts of a product have the cells of both factors. -/
theorem card_mul {p q : Assertion κ} {m n : Nat} (hp : ∀ part, p part → part.keys.card = m)
    (hq : ∀ part, q part → part.keys.card = n) {part : Heap κ} (hpart : (p * q) part) :
    part.keys.card = m + n := by
  obtain ⟨first, second, hdisjoint, rfl, hfirst, hsecond⟩ := hpart
  rw [Finmap.keys_union, Finset.card_union_of_disjoint, hp first hfirst, hq second hsecond]
  apply Finset.disjoint_left.mpr
  intro address haddress haddress'
  exact hdisjoint address (Finmap.mem_keys.mp haddress) (Finmap.mem_keys.mp haddress')

theorem card_points {address : Nat} {cell : κ} {part : Heap κ} (hpart : points address cell part) :
    part.keys.card = 1 := by
  rw [hpart, Finmap.keys_singleton, Finset.card_singleton]

theorem card_fact {p : Prop} {part : Heap κ} (hpart : (fact p : Assertion κ) part) :
    part.keys.card = 0 := by
  rw [hpart.2, Finmap.keys_empty, Finset.card_empty]

end Assertion

/-! ## Triples -/

open Assertion

/-- From any heap with a part that satisfies `pre`, the program ends with an outcome, the
rest of the heap is unchanged, and the remaining part satisfies `post`. -/
def Triple (pre : Assertion κ) (program : Program κ α) (post : α → Assertion κ) : Prop :=
  ∀ part rest : Heap κ, pre part → part.Disjoint rest →
    ∃ result part', program (part ∪ rest) = some (result, part' ∪ rest) ∧
      part'.Disjoint rest ∧ post result part'

namespace Triple

variable {pre : Assertion κ} {program : Program κ α} {post : α → Assertion κ}

theorem consequence {pre' : Assertion κ} {post' : α → Assertion κ}
    (htriple : Triple pre program post) (hpre : ∀ part, pre' part → pre part)
    (hpost : ∀ result part, post result part → post' result part) :
    Triple pre' program post' := by
  intro part rest hpart hdisjoint
  obtain ⟨result, part', hrun, hdisjoint', hresult⟩ := htriple part rest (hpre part hpart) hdisjoint
  exact ⟨result, part', hrun, hdisjoint', hpost result part' hresult⟩

theorem weaken {post' : α → Assertion κ} (htriple : Triple pre program post)
    (hpost : ∀ result part, post result part → post' result part) : Triple pre program post' :=
  htriple.consequence (fun _ => id) hpost

/-- The frame rule. -/
theorem frame (htriple : Triple pre program post) (other : Assertion κ) :
    Triple (pre * other) program fun result => post result * other := by
  rintro _ rest ⟨first, second, hdisjoint, rfl, hfirst, hsecond⟩ hrest
  obtain ⟨hfirstRest, hsecondRest⟩ := (Finmap.disjoint_union_left _ _ _).mp hrest
  obtain ⟨result, part', hrun, hdisjoint', hpost⟩ := htriple first (second ∪ rest) hfirst
    ((Finmap.disjoint_union_right _ _ _).mpr ⟨hdisjoint, hfirstRest⟩)
  obtain ⟨hsecond', hrest'⟩ := (Finmap.disjoint_union_right _ _ _).mp hdisjoint'
  refine ⟨result, part' ∪ second, ?_, ?_, part', second, hsecond', rfl, hpost, hsecond⟩
  · rw [Finmap.union_assoc, hrun, Finmap.union_assoc]
  · exact (Finmap.disjoint_union_left _ _ _).mpr ⟨hrest', hsecondRest⟩

theorem pure {result : α} (h : ∀ part, pre part → post result part) :
    Triple pre (Pure.pure result) post := by
  intro part rest hpart hdisjoint
  exact ⟨result, part, rfl, hdisjoint, h part hpart⟩

theorem bind {next : α → Program κ β} {post' : β → Assertion κ}
    (hfirst : Triple pre program post)
    (hnext : ∀ result, Triple (post result) (next result) post') :
    Triple pre (program >>= next) post' := by
  intro part rest hpart hdisjoint
  obtain ⟨result, part', hrun, hdisjoint', hpost⟩ := hfirst part rest hpart hdisjoint
  obtain ⟨result', part'', hrun', hdisjoint'', hpost'⟩ := hnext result part' rest hpost hdisjoint'
  refine ⟨result', part'', ?_, hdisjoint'', hpost'⟩
  change (program (part ∪ rest)).bind (fun outcome => next outcome.1 outcome.2) = _
  rw [hrun]
  exact hrun'

/-- A program that only looks at its part and ends with a value known beforehand. -/
theorem read_bind {value : α} (hread : Triple pre program fun result => fact (result = value) * pre)
    {next : α → Program κ β} {post' : β → Assertion κ} (hnext : Triple pre (next value) post') :
    Triple pre (program >>= next) post' := by
  refine hread.bind fun result => ?_
  intro part rest hpart hdisjoint
  obtain ⟨rfl, hpre⟩ := fact_mul_apply.mp hpart
  exact hnext part rest hpre hdisjoint

/-- Calling a program on a part of the heap. -/
theorem call {whole other : Assertion κ} {next : α → Program κ β} {post' : β → Assertion κ}
    (hfirst : Triple pre program post) (hwhole : whole = pre * other)
    (hnext : ∀ result, Triple (post result * other) (next result) post') :
    Triple whole (program >>= next) post' := by
  rw [hwhole]
  exact (hfirst.frame other).bind hnext

/-- The last call of a program. -/
theorem last {whole other : Assertion κ} {post' : α → Assertion κ}
    (htriple : Triple pre program post) (hwhole : whole = pre * other)
    (hpost : ∀ result part, (post result * other) part → post' result part) :
    Triple whole program post' := by
  rw [hwhole]
  exact (htriple.frame other).weaken hpost

/-- The precondition written in another way. -/
theorem reorder (pre' : Assertion κ) (heq : pre = pre') (htriple : Triple pre' program post) :
    Triple pre program post :=
  heq ▸ htriple

/-- A fact that the precondition gives. -/
theorem know {p : Prop} (hknow : ∀ part, pre part → p) (h : p → Triple pre program post) :
    Triple pre program post :=
  fun part rest hpart => h (hknow part hpart) part rest hpart

theorem of_any {ι : Sort*} {family : ι → Assertion κ}
    (h : ∀ index, Triple (family index) program post) : Triple (any family) program post := by
  rintro part rest ⟨index, hpart⟩ hdisjoint
  exact h index part rest hpart hdisjoint

theorem of_any_mul {ι : Sort*} {family : ι → Assertion κ} {other : Assertion κ}
    (h : ∀ index, Triple (family index * other) program post) :
    Triple (any family * other) program post := by
  rw [any_mul]
  exact of_any h

theorem of_fact_mul {p : Prop} {other : Assertion κ} (h : p → Triple other program post) :
    Triple (fact p * other) program post := by
  intro part rest hpart hdisjoint
  obtain ⟨hp, hother⟩ := fact_mul_apply.mp hpart
  exact h hp part rest hother hdisjoint

/-- When a program may do something else under an allocator that gives up on some heap, it does
so on a given heap only if it is refused memory there. -/
theorem on_heap {program : Allocator κ → Program κ α} {State : Type*}
    {describe : α → State → Assertion κ} (next : Prop → α → State → Prop)
    (h : ∀ allocator, Triple pre (program allocator) fun result => any fun state =>
      fact (next allocator.Fails result state) * describe result state)
    (allocator : Allocator κ) {part rest : Heap κ} (hpart : pre part)
    (hdisjoint : part.Disjoint rest) :
    ∃ result part' state, program allocator (part ∪ rest) = some (result, part' ∪ rest) ∧
      part'.Disjoint rest ∧ next (allocator.Refuses program (part ∪ rest)) result state ∧
      describe result state part' := by
  have hsame : ∃ other : Allocator κ,
      program allocator (part ∪ rest) = program other (part ∪ rest) ∧
      other.Fails = allocator.Refuses program (part ∪ rest) := by
    by_cases hrefuses : allocator.Refuses program (part ∪ rest)
    · exact ⟨allocator, rfl, propext ⟨fun _ => hrefuses, fun _ => hrefuses.fails⟩⟩
    · exact ⟨allocator.unfailing, not_not.mp hrefuses, propext
        ⟨fun hfails => absurd hfails allocator.unfailing_never, fun h => absurd h hrefuses⟩⟩
  obtain ⟨other, hrun, hfails⟩ := hsame
  obtain ⟨result, part', hresult, hdisjoint', state, hstate⟩ := h other part rest hpart hdisjoint
  obtain ⟨hnext, hdescribe⟩ := fact_mul_apply.mp hstate
  exact ⟨result, part', state, hrun.trans hresult, hdisjoint', hfails ▸ hnext, hdescribe⟩

/-- A program that returns a pointer, and a null pointer when it is refused memory or for
another reason. -/
theorem pointer_on_heap {program : Allocator κ → Program κ (Option Nat)}
    {otherwise : Assertion κ} {holds : Nat → Assertion κ} (missing : Prop → Prop)
    (h : ∀ allocator, Triple pre (program allocator) fun result =>
      match result with
      | none => fact (missing allocator.Fails) * otherwise
      | some address => holds address)
    (allocator : Allocator κ) {part rest : Heap κ} (hpart : pre part)
    (hdisjoint : part.Disjoint rest) :
    ∃ result part', program allocator (part ∪ rest) = some (result, part' ∪ rest) ∧
      part'.Disjoint rest ∧
      match result with
      | none => missing (allocator.Refuses program (part ∪ rest)) ∧ otherwise part'
      | some address => holds address part' := by
  let left : Option Nat → Unit → Assertion κ := fun result _ =>
    match result with
    | none => otherwise
    | some address => holds address
  have hspec : ∀ allocator, Triple pre (program allocator) fun result => any fun state =>
      fact (result = none → missing allocator.Fails) * left result state := by
    intro allocator
    refine (h allocator).weaken fun result part hpart => any_intro () ?_
    cases result with
    | none =>
        obtain ⟨hmissing, hpart⟩ := fact_mul_apply.mp hpart
        exact fact_mul_apply.mpr ⟨fun _ => hmissing, hpart⟩
    | some address => exact fact_mul_apply.mpr ⟨(nomatch ·), hpart⟩
  obtain ⟨result, part', _, hrun, hdisjoint', hreason, hpart'⟩ :=
    on_heap (fun refused result _ => result = none → missing refused) hspec allocator hpart
      hdisjoint
  refine ⟨result, part', hrun, hdisjoint', ?_⟩
  cases result with
  | none => exact ⟨hreason rfl, hpart'⟩
  | some address => exact hpart'

/-! ### Primitive operations -/

variable {address : Nat} {cell : κ}

theorem load : Triple (points address cell) (Program.load (some address)) fun result =>
    fact (result = cell) * points address cell := by
  rintro _ rest rfl hdisjoint
  refine ⟨cell, Finmap.singleton address cell, ?_, hdisjoint, fact_mul_apply.mpr ⟨rfl, rfl⟩⟩
  simp [Program.load]

theorem store (cell' : κ) :
    Triple (points address cell) (Program.store (some address) cell') fun _ =>
      points address cell' := by
  rintro _ rest rfl hdisjoint
  refine ⟨(), Finmap.singleton address cell', ?_, ?_, rfl⟩
  · simp [Program.store, Finmap.insert_union]
  · intro other hother
    exact hdisjoint other
      ((Finmap.mem_singleton _ _ _).mpr ((Finmap.mem_singleton _ _ _).mp hother))

theorem free : Triple (points address cell) (Program.free (some address)) fun _ => 1 := by
  rintro _ rest rfl hdisjoint
  have hrest : address ∉ rest := hdisjoint address ((Finmap.mem_singleton _ _ _).mpr rfl)
  refine ⟨(), ∅, ?_, Finmap.disjoint_empty rest, rfl⟩
  have herase : (Finmap.singleton address cell ∪ rest).erase address = rest := by
    apply Finmap.ext_lookup
    intro other
    by_cases heq : other = address
    · rw [heq, Finmap.lookup_erase, Finmap.lookup_eq_none.mpr hrest]
    · rw [Finmap.lookup_erase_ne heq, Finmap.lookup_union_right]
      exact fun hmem => heq ((Finmap.mem_singleton _ _ _).mp hmem)
  simp [Program.free, herase]

/-- An allocation hands out a new cell, or nothing. -/
theorem allocate (allocator : Allocator κ) (cell : κ) :
    Triple 1 (Program.allocate allocator cell) fun result =>
      match result with
      | none => fact allocator.Fails
      | some address => points address cell := by
  rintro _ rest rfl _
  rw [Finmap.empty_union]
  unfold Program.allocate
  cases hchoose : allocator.choose rest with
  | none =>
      exact ⟨none, ∅, by rw [Finmap.empty_union], Finmap.disjoint_empty rest, ⟨rest, hchoose⟩, rfl⟩
  | some address =>
      have hfresh := allocator.fresh rest address hchoose
      refine ⟨some address, Finmap.singleton address cell, ?_, ?_, rfl⟩
      · congr 2
      · intro other hother
        rwa [(Finmap.mem_singleton _ _ _).mp hother]

/-- Reading a cell and going on. -/
theorem load_bind {whole other : Assertion κ} {next : κ → Program κ β}
    {post' : β → Assertion κ} (hwhole : whole = points address cell * other)
    (hnext : Triple whole (next cell) post') :
    Triple whole (Program.load (some address) >>= next) post' := by
  refine load.call hwhole fun result => ?_
  rw [mul_assoc]
  apply of_fact_mul
  rintro rfl
  rwa [← hwhole]

/-- Writing a cell and going on. -/
theorem store_bind {whole other : Assertion κ} {cell' : κ} {next : Unit → Program κ β}
    {post' : β → Assertion κ} (hwhole : whole = points address cell * other)
    (hnext : Triple (points address cell' * other) (next ()) post') :
    Triple whole (Program.store (some address) cell' >>= next) post' :=
  (store cell').call hwhole fun _ => hnext

/-- Freeing a cell and going on. -/
theorem free_bind {whole other : Assertion κ} {next : Unit → Program κ β}
    {post' : β → Assertion κ} (hwhole : whole = points address cell * other)
    (hnext : Triple other (next ()) post') :
    Triple whole (Program.free (some address) >>= next) post' := by
  refine free.call hwhole fun _ => ?_
  rwa [one_mul]

/-- Reading a lent cell and giving it back. -/
theorem lent_bind {whole other : Assertion κ} {next : κ → Program κ β}
    {post' : β → Assertion κ} (hnext : Triple (whole * other) (next cell) post') :
    Triple (lent whole address cell * other) (Program.load (some address) >>= next) post' := by
  refine of_any_mul fun remainder => ?_
  rw [mul_assoc]
  refine of_fact_mul fun hback => ?_
  rw [mul_assoc]
  refine load_bind rfl (hnext.consequence (fun part hpart => ?_) fun _ _ => id)
  rw [← mul_assoc] at hpart
  exact mul_mono_left hback other part hpart

end Triple

/-! ## Runs -/

/-- A list of steps leads from one state to another. -/
inductive Path {Action State : Type*} (next : Action → State → State → Prop) :
    List Action → State → State → Prop
  | nil (state : State) : Path next [] state state
  | cons {action : Action} {actions : List Action} {state middle last : State}
      (hstep : next action state middle) (hrest : Path next actions middle last) :
      Path next (action :: actions) state last

/-- A moment between the steps of a run: the heap, what has been collected, and the state
that is described. -/
structure Moment (κ Acc : Type) (State : Type*) where
  heap : Heap κ
  collected : Acc
  state : State

section Runs

variable {Action Acc : Type} {State : Type*} {step : Acc → Action → Program κ Acc}
  {actions : List Action} {acc : Acc} {state : State}

/-- When every step leads from a described state to another described one, on the heap that
the steps before it left, a run follows a path of such moments. A condition on the state and
the actions that are left may go along. -/
theorem foldlM_path (describe : Acc → State → Assertion κ)
    (next : Action → Moment κ Acc State → Moment κ Acc State → Prop)
    (ready : State → List Action → Prop) {other : Heap κ}
    (hstep : ∀ acc action rest state part, ready state (action :: rest) →
      describe acc state part → part.Disjoint other →
      ∃ acc' part' state', step acc action (part ∪ other) = some (acc', part' ∪ other) ∧
        part'.Disjoint other ∧
        next action ⟨part ∪ other, acc, state⟩ ⟨part' ∪ other, acc', state'⟩ ∧
        ready state' rest ∧ describe acc' state' part')
    (hready : ready state actions) {part : Heap κ} (hpart : describe acc state part)
    (hdisjoint : part.Disjoint other) :
    ∃ acc' part' state', actions.foldlM step acc (part ∪ other) = some (acc', part' ∪ other) ∧
      part'.Disjoint other ∧
      Path next actions ⟨part ∪ other, acc, state⟩ ⟨part' ∪ other, acc', state'⟩ ∧
      ready state' [] ∧ describe acc' state' part' := by
  induction actions generalizing acc state part with
  | nil => exact ⟨acc, part, state, rfl, hdisjoint, .nil _, hready, hpart⟩
  | cons action rest ih =>
      obtain ⟨middle, part', state', hrun, hdisjoint', hnext, hready', hpart'⟩ :=
        hstep acc action rest state part hready hpart hdisjoint
      obtain ⟨last, part'', state'', hrest, hdisjoint'', hpath, hend⟩ :=
        ih hready' hpart' hdisjoint'
      refine ⟨last, part'', state'', ?_, hdisjoint'', .cons hnext hpath, hend⟩
      rw [List.foldlM_cons]
      change (step acc action (part ∪ other)).bind (fun outcome =>
        rest.foldlM step outcome.1 outcome.2) = _
      rw [hrun]
      exact hrest

end Runs

end Separation
