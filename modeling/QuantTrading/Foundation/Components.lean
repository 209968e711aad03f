import QuantTrading.Foundation.SeparationLogic

/-! # Components on a heap

A component is created, called any number of times and destroyed. Its functions are
verified one by one against a state that the component represents; the library puts them
together to a whole life: nothing goes wrong, the replies are those of a path of states, on
which a call does something else only if memory is refused to it, and the heap at the end is
the heap at the beginning.
-/

namespace Separation

open Assertion

/-- The functions of a component. The constructor may return a null pointer, and the
destructor accepts one. -/
structure Component (κ Call Reply : Type) where
  create : Program κ (Option Nat)
  call : Nat → Call → Program κ Reply
  destroy : Option Nat → Program κ Unit

namespace Component

variable {κ Call Reply : Type} {State : Type*}

/-- Call a component several times and collect the replies. -/
def callAll (component : Component κ Call Reply) (address : Nat) (calls : List Call) :
    Program κ (List Reply) :=
  calls.foldlM (fun replies next => do
    let reply ← component.call address next
    return replies ++ [reply]) []

/-- The whole life of a component: its replies, unless it could not be created. -/
def live (component : Component κ Call Reply) (calls : List Call) :
    Program κ (Option (List Reply)) := do
  match ← component.create with
  | none => do
      component.destroy none
      return none
  | some address => do
      let replies ← component.callAll address calls
      component.destroy (some address)
      return some replies

/-- A life without a component. -/
theorem live_none {component : Component κ Call Reply} {calls : List Call} {heap heap' : Heap κ}
    (hcreate : component.create heap = some (none, heap'))
    (hdestroy : component.destroy none = pure ()) :
    component.live calls heap = some (none, heap') := by
  change (component.create heap).bind _ = _
  rw [hcreate]
  change (component.destroy none >>= fun _ => pure none) heap' = _
  rw [hdestroy]
  rfl

/-- A life in its three parts. -/
theorem live_some {component : Component κ Call Reply} {calls : List Call}
    {heap created called last : Heap κ} {address : Nat} {replies : List Reply}
    (hcreate : component.create heap = some (some address, created))
    (hcalls : component.callAll address calls created = some (replies, called))
    (hdestroy : component.destroy (some address) called = some ((), last)) :
    component.live calls heap = some (some replies, last) := by
  change (component.create heap).bind _ = _
  rw [hcreate]
  change (component.callAll address calls created).bind _ = _
  rw [hcalls]
  change (component.destroy (some address) called).bind _ = _
  rw [hdestroy]
  rfl

/-- What a component represents, and that its functions keep to it under any allocator. -/
structure Represents (component : Allocator κ → Component κ Call Reply) (State : Type*) where
  /-- The component at an address is in a state. -/
  holds : Nat → State → Assertion κ
  start : State
  /-- What a call may reply and make of a state, given whether memory is refused to it. -/
  next : Prop → Call → State → Reply → State → Prop
  /-- What the remaining calls need. -/
  ready : State → List Call → Prop
  create_spec : ∀ allocator, Triple 1 (component allocator).create fun result =>
    match result with
    | none => fact allocator.Fails
    | some address => holds address start
  call_spec : ∀ allocator address state call rest, ready state (call :: rest) →
    Triple (holds address state) ((component allocator).call address call) fun reply =>
      any fun state' => fact (next allocator.Fails call state reply state' ∧
        ready state' rest) * holds address state'
  destroy_none : ∀ allocator, (component allocator).destroy none = pure ()
  destroy_spec : ∀ allocator address state, ready state [] →
    Triple (holds address state) ((component allocator).destroy (some address)) fun _ => 1

namespace Represents

variable {component : Allocator κ → Component κ Call Reply} (spec : Represents component State)
  (allocator : Allocator κ)

/-- A call on the heap that the calls before it left. What it replies and makes of the state
depends on whether memory is refused to this call. -/
def Answered (address : Nat) (call : Call) (before after : Moment κ (List Reply) State) : Prop :=
  ∃ reply, (component allocator).call address call before.heap = some (reply, after.heap) ∧
    after.collected = before.collected ++ [reply] ∧
    spec.next (allocator.Refuses (fun allocator => (component allocator).call address call)
      before.heap) call before.state reply after.state

/-- A life in a heap: its replies belong to a path of calls, at the end of which nothing is
missing, or memory was refused to the constructor. -/
def Outcome (calls : List Call) (heap : Heap κ) : Option (List Reply) → Prop
  | none => allocator.Refuses (fun allocator => (component allocator).create) heap
  | some replies => ∃ address created after,
      (component allocator).create heap = some (some address, created) ∧
      Path (spec.Answered allocator address) calls ⟨created, [], spec.start⟩ after ∧
      after.collected = replies ∧ spec.ready after.state []

/-- The constructor, on a heap. -/
theorem create_on_heap (heap : Heap κ) :
    ∃ result part, (component allocator).create heap = some (result, part ∪ heap) ∧
      part.Disjoint heap ∧
      match result with
      | none => allocator.Refuses (fun allocator => (component allocator).create) heap ∧ part = ∅
      | some address => spec.holds address spec.start part := by
  have hspec : ∀ allocator, Triple 1 (component allocator).create fun result =>
      match result with
      | none => fact allocator.Fails * 1
      | some address => spec.holds address spec.start := by
    intro allocator
    refine (spec.create_spec allocator).weaken fun result part hpart => ?_
    cases result with
    | none => exact fact_mul_apply.mpr hpart
    | some address => exact hpart
  obtain ⟨result, part, hrun, hdisjoint, hpart⟩ :=
    Triple.pointer_on_heap (fun refused => refused) hspec allocator (one_apply.mpr rfl)
      (Finmap.disjoint_empty heap)
  rw [Finmap.empty_union] at hrun hpart
  exact ⟨result, part, hrun, hdisjoint, hpart⟩

/-- Calls, beside some other heap. -/
theorem callAll_on_heap {calls : List Call} (hready : spec.ready spec.start calls) {address : Nat}
    {part other : Heap κ} (hpart : spec.holds address spec.start part)
    (hdisjoint : part.Disjoint other) :
    ∃ replies part' state,
      (component allocator).callAll address calls (part ∪ other) = some (replies, part' ∪ other) ∧
      part'.Disjoint other ∧
      Path (spec.Answered allocator address) calls ⟨part ∪ other, [], spec.start⟩
        ⟨part' ∪ other, replies, state⟩ ∧
      spec.ready state [] ∧ spec.holds address state part' := by
  refine foldlM_path (fun _ state => spec.holds address state) (spec.Answered allocator address)
    spec.ready (fun replies call rest state part hready hpart hdisjoint => ?_) hready hpart
    hdisjoint
  obtain ⟨reply, part', state', hrun, hdisjoint', ⟨hnext, hready'⟩, hpart'⟩ :=
    Triple.on_heap (fun refused reply state' =>
      spec.next refused call state reply state' ∧ spec.ready state' rest)
      (fun allocator => spec.call_spec allocator address state call rest hready) allocator hpart
      hdisjoint
  refine ⟨replies ++ [reply], part', state', ?_, hdisjoint', ⟨reply, hrun, rfl, hnext⟩, hready',
    hpart'⟩
  change ((component allocator).call address call (part ∪ other)).bind _ = _
  rw [hrun]
  rfl

/-- A life from the constructor to the destructor leaves the heap as it was. -/
theorem live_on_heap {calls : List Call} (hready : spec.ready spec.start calls) (heap : Heap κ) :
    ∃ result, (component allocator).live calls heap = some (result, heap) ∧
      spec.Outcome allocator calls heap result := by
  obtain ⟨result, part, hcreate, hdisjoint, hcreated⟩ := spec.create_on_heap allocator heap
  cases result with
  | none =>
      obtain ⟨hrefused, rfl⟩ := hcreated
      rw [Finmap.empty_union] at hcreate
      exact ⟨none, live_none hcreate (spec.destroy_none allocator), hrefused⟩
  | some address =>
      obtain ⟨replies, part', state, hcalls, hdisjoint', hpath, hend, hpart'⟩ :=
        spec.callAll_on_heap allocator hready hcreated hdisjoint
      obtain ⟨_, rest, hdestroy, _, hrest⟩ :=
        spec.destroy_spec allocator address state hend part' heap hpart' hdisjoint'
      rw [one_apply] at hrest
      rw [hrest, Finmap.empty_union] at hdestroy
      exact ⟨some replies, live_some hcreate hcalls hdestroy, address, _, _, hcreate, hpath, rfl,
        hend⟩

/-- When a path of calls under an allocator that never gives up has the expected replies, so has
a life to which no memory is refused. -/
theorem live_replies {calls : List Call} (hready : spec.ready spec.start calls) (heap : Heap κ)
    {expected : List Reply} (hexpected : ∀ allocator, ¬ allocator.Fails → ∀ address created after,
      Path (spec.Answered allocator address) calls ⟨created, [], spec.start⟩ after →
        after.collected = expected) :
    ∃ result, (component allocator).live calls heap = some (result, heap) ∧
      spec.Outcome allocator calls heap result ∧
      (¬ allocator.Refuses (fun allocator => (component allocator).live calls) heap →
        result = some expected) := by
  obtain ⟨result, hrun, houtcome⟩ := spec.live_on_heap allocator hready heap
  refine ⟨result, hrun, houtcome, fun hgranted => ?_⟩
  obtain ⟨result', hrun', houtcome'⟩ := spec.live_on_heap allocator.unfailing hready heap
  have hsame : some (result, heap) = some (result', heap) :=
    hrun.symm.trans ((not_not.mp hgranted).trans hrun')
  cases hsame
  cases result with
  | none =>
      have hrefused : allocator.unfailing.Refuses (fun allocator => (component allocator).create)
          heap := houtcome'
      exact absurd hrefused.fails allocator.unfailing_never
  | some replies =>
      obtain ⟨address, created, after, _, hpath, rfl, _⟩ := houtcome'
      exact congrArg some (hexpected _ allocator.unfailing_never address created after hpath)

end Represents

end Component

end Separation
