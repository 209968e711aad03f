import QuantTrading.Client.OrderEntry
import QuantTrading.Foundation.Components
import QuantTrading.Foundation.ListMemory

/-! # Order entry as a program on memory

The functions of `order_entry.c` on the record of an entry, the copy of its trader id and
the linked list of its active orders. `strdup` may fail and leave an entry without a
trader id: `order_entry_create` then hands a null pointer to the `%s` of its log line,
which is not modelled, and nothing else reads the trader id until it is freed. `calloc`
may fail for the entry and for the record of an order. The loops take a bound on the
number of records they may visit.
-/

namespace QuantTrading

open Separation Separation.Program Separation.Assertion

/-- The fields of `struct OrderRecord` but for the pointer to the next one. -/
structure OrderFields where
  orderId : CString
  symbol : CString
  price : ℚ
  quantity : Int
  isBuy : Bool
deriving DecidableEq, Repr

/-- The fields of `struct OrderEntry`. -/
structure EntryFields where
  activeOrders : Option Nat
  activeCount : Int
  totalNotional : ℚ
  maxOrders : Int
  maxNotional : ℚ
  traderId : Option Nat

/-- The cells of an order entry. -/
inductive EntryCell where
  | entry (fields : EntryFields) : EntryCell
  | record (fields : OrderFields) (next : Option Nat) : EntryCell
  | text (traderId : CString) : EntryCell

/-- What a record holds, apart from where it is. -/
def OrderRecord.fields (record : OrderRecord) : OrderFields where
  orderId := record.orderId
  symbol := record.symbol
  price := record.price
  quantity := record.quantity
  isBuy := record.isBuy

variable {β : Type}

namespace EntryMemory

/-! ## The functions -/

/-- `struct OrderRecord`. -/
def orderRecord : NodeLayout EntryCell OrderFields where
  node := .record
  read := fun cell =>
    match cell with
    | .record fields next => some (fields, next)
    | _ => none
  read_node := fun _ _ => rfl

/-- The fields of the entry a pointer points to. -/
def loadEntry (entry : Nat) : Program EntryCell EntryFields := do
  match ← load (some entry) with
  | .entry fields => return fields
  | _ => fault

/-- `order_entry_create`. -/
def orderEntryCreate (allocator : Allocator EntryCell) (config : OrderEntryConfig) :
    Program EntryCell (Option Nat) := do
  match ← allocate allocator (.entry ⟨none, 0, 0, config.maxOrders, config.maxNotional, none⟩) with
  | none => return none
  | some entry => do
      let traderId ← allocate allocator (.text config.traderId)
      let fields ← loadEntry entry
      store (some entry) (.entry { fields with traderId := traderId })
      return some entry

/-- `order_entry_destroy`. -/
def orderEntryDestroy (fuel : Nat) : Option Nat → Program EntryCell Unit
  | none => return ()
  | some entry => do
      let fields ← loadEntry entry
      orderRecord.releaseAll (fun current => free (some current)) fuel fields.activeOrders
      let fields ← loadEntry entry
      release fields.traderId
      free (some entry)

/-- `order_entry_submit`. -/
def orderEntrySubmit (allocator : Allocator EntryCell) (entry : Option Nat)
    (symbol : Option CString) (price : ℚ) (quantity : Int) (isBuy : Bool) :
    Program EntryCell Int :=
  match entry, symbol with
  | some entry, some symbol => do
      let newNotional := price * quantity
      let fields ← loadEntry entry
      if fields.maxOrders ≤ fields.activeCount then return -1
      else if fields.maxNotional < fields.totalNotional + newNotional then return -1
      else do
        let orderId := snprintf 32 ("ORD".toList ++ printLong (fields.activeCount + 1))
        match ← allocate allocator
            (.record ⟨orderId, symbol.take 15, price, quantity, isBuy⟩ none) with
        | none => return -1
        | some record => do
            let fields ← loadEntry entry
            orderRecord.setNext record fields.activeOrders
            store (some entry) (.entry { fields with
              activeOrders := some record
              activeCount := fields.activeCount + 1
              totalNotional := fields.totalNotional + newNotional })
            return 0
  | _, _ => return -1

/-- Write the head of the list of an entry. -/
def setActiveOrders (entry : Nat) (activeOrders : Option Nat) : Program EntryCell Unit := do
  let fields ← loadEntry entry
  store (some entry) (.entry { fields with activeOrders := activeOrders })

/-- `order_entry_cancel`. The record is read once more after it was unlinked. -/
def orderEntryCancel (fuel : Nat) (entry : Option Nat) (orderId : Option CString) :
    Program EntryCell Int :=
  match entry, orderId with
  | some entry, some orderId => do
      let fields ← loadEntry entry
      match ← orderRecord.unlinkFirst (setActiveOrders entry)
          (fun current => current.orderId = orderId) fuel none fields.activeOrders with
      | none => return -1
      | some current => do
          let (record, _) ← orderRecord.load current
          let fields ← loadEntry entry
          store (some entry) (.entry { fields with
            totalNotional := fields.totalNotional - record.price * record.quantity
            activeCount := fields.activeCount - 1 })
          free (some current)
          return 0
  | _, _ => return -1

/-- The functions of an order entry. -/
def component (allocator : Allocator EntryCell) (fuel : Nat) (config : OrderEntryConfig) :
    Component EntryCell OrderEntryCall Int where
  create := orderEntryCreate allocator config
  call := fun entry call =>
    match call with
    | .submit symbol price quantity isBuy =>
        orderEntrySubmit allocator (some entry) (some symbol) price quantity isBuy
    | .cancel orderId => orderEntryCancel fuel (some entry) (some orderId)
  destroy := orderEntryDestroy fuel

/-! ## What they compute -/

/-- A record stands for an order, wherever it is. -/
def holdsOrder (fields : OrderFields) (record : OrderRecord) : Assertion EntryCell :=
  fact (fields = record.fields)

/-- The copy of the trader id, when there is one. -/
def textAt (text : CString) : Option Nat → Assertion EntryCell
  | none => 1
  | some address => points address (.text text)

/-- The fields of an entry whose list starts at a pointer. -/
def entryFields (entry : OrderEntry) (head traderId : Option Nat) : EntryFields where
  activeOrders := head
  activeCount := entry.activeCount
  totalNotional := entry.totalNotional
  maxOrders := entry.maxOrders
  maxNotional := entry.maxNotional
  traderId := traderId

/-- An entry in memory. -/
def entryAt (address : Nat) (entry : OrderEntry) : Assertion EntryCell :=
  any fun place : Option Nat × Option Nat =>
    points address (.entry (entryFields entry place.1 place.2)) *
      (orderRecord.segment holdsOrder place.1 entry.activeOrders none *
        textAt entry.traderId place.2)

/-- What a call may reply and make of an entry: a submit may be refused memory. -/
def Next (refused : Prop) (call : OrderEntryCall) (entry : OrderEntry) (code : Int)
    (entry' : OrderEntry) : Prop :=
  (code, entry') = entry.call call ∨
    (∃ symbol price quantity isBuy, call = .submit symbol price quantity isBuy) ∧
      refused ∧ code = -1 ∧ entry' = entry

section Calls

variable {address : Nat} {entry : OrderEntry} {fields : EntryFields} {head traderId : Option Nat}
  {other : Assertion EntryCell} {post : β → Assertion EntryCell}

theorem loadEntry_bind {next : EntryFields → Program EntryCell β}
    (hnext : Triple (points address (.entry fields) * other) (next fields) post) :
    Triple (points address (.entry fields) * other) (loadEntry address >>= next) post := by
  rw [loadEntry, bind_assoc]
  exact Triple.load_bind rfl hnext

/-- An entry in parts. -/
theorem entryAt_intro (head traderId : Option Nat) {part : Heap EntryCell}
    (hpart : (points address (.entry (entryFields entry head traderId)) *
      (orderRecord.segment holdsOrder head entry.activeOrders none *
        textAt entry.traderId traderId) : Assertion EntryCell) part) :
    entryAt address entry part :=
  any_intro (head, traderId) hpart

theorem allocateText_spec (allocator : Allocator EntryCell) (text : CString) :
    Triple 1 (allocate allocator (.text text)) (textAt text) := by
  refine (Triple.allocate allocator _).weaken fun result part hpart => ?_
  cases result with
  | none => exact hpart.2
  | some address => exact hpart

theorem orderEntryCreate_spec (allocator : Allocator EntryCell) (config : OrderEntryConfig) :
    Triple 1 (orderEntryCreate allocator config) fun result =>
      match result with
      | none => fact allocator.Fails
      | some address => entryAt address (OrderEntry.create config) := by
  rw [orderEntryCreate]
  refine (Triple.allocate allocator _).bind fun result => ?_
  cases result with
  | none => exact Triple.pure fun _ => id
  | some address =>
      refine (allocateText_spec allocator _).call (one_mul _).symm fun traderId => ?_
      rw [mul_comm]
      apply loadEntry_bind
      refine Triple.store_bind rfl (Triple.pure fun part hpart => ?_)
      refine entryAt_intro none traderId ?_
      rw [OrderEntry.create, NodeLayout.segment_nil, one_mul]
      exact hpart

/-- Linking a new record at the head of the list. -/
theorem orderEntrySubmit_spec (allocator : Allocator EntryCell) (symbol : CString) (price : ℚ)
    (quantity : Int) (isBuy : Bool) :
    Triple (entryAt address entry)
      (orderEntrySubmit allocator (some address) (some symbol) price quantity isBuy) fun code =>
        any fun entry' =>
          fact (Next allocator.Fails (.submit symbol price quantity isBuy) entry code entry') *
            entryAt address entry' := by
  refine Triple.of_any fun ⟨head, traderId⟩ => ?_
  rw [orderEntrySubmit]
  apply loadEntry_bind
  dsimp only [entryFields]
  have hrefused : (entry.call (.submit symbol price quantity isBuy)) = (-1, entry) →
      ∀ part, (points address (.entry (entryFields entry head traderId)) *
        (orderRecord.segment holdsOrder head entry.activeOrders none *
          textAt entry.traderId traderId) : Assertion EntryCell) part →
        (any fun entry' =>
          fact (Next allocator.Fails (.submit symbol price quantity isBuy) entry (-1) entry') *
            entryAt address entry') part :=
    fun hcall part hpart => any_intro entry (fact_mul_apply.mpr
      ⟨Or.inl hcall.symm, entryAt_intro head traderId hpart⟩)
  by_cases hfull : entry.maxOrders ≤ entry.activeCount
  · rw [if_pos hfull]
    exact Triple.pure (hrefused (if_pos hfull))
  · rw [if_neg hfull]
    by_cases hlarge : entry.maxNotional < entry.totalNotional + price * quantity
    · rw [if_pos hlarge]
      exact Triple.pure (hrefused ((if_neg hfull).trans (if_pos hlarge)))
    · rw [if_neg hlarge]
      refine (Triple.allocate allocator _).call (one_mul _).symm fun result => ?_
      cases result with
      | none =>
          refine Triple.of_fact_mul fun hfails => Triple.pure fun part hpart => ?_
          refine any_intro entry (fact_mul_apply.mpr
            ⟨Or.inr ⟨⟨_, _, _, _, rfl⟩, hfails, rfl, rfl⟩, entryAt_intro head traderId hpart⟩)
      | some record =>
          dsimp only
          rw [mul_left_comm]
          apply loadEntry_bind
          rw [mul_left_comm]
          refine (NodeLayout.setNext_spec head).call rfl fun _ => ?_
          refine Triple.store_bind (mul_left_comm _ _ _) (Triple.pure fun part hpart => ?_)
          have hsubmit : entry.submit symbol price quantity isBuy = (0, { entry with
              activeOrders := entry.newRecord symbol price quantity isBuy :: entry.activeOrders
              activeCount := entry.activeCount + 1
              totalNotional := entry.totalNotional + price * quantity
              nextAddress := entry.nextAddress + 1 }) := by
            rw [OrderEntry.submit, if_neg hfull, if_neg hlarge]
          refine any_intro _ (fact_mul_apply.mpr ⟨Or.inl hsubmit.symm, ?_⟩)
          refine entryAt_intro (some record) traderId (rearrange (mul_left_comm _ _ _) ?_)
          refine NodeLayout.segment_cons
            (entry.newRecord symbol price quantity isBuy).fields head ?_
          rw [holdsOrder, fact_of_true rfl, one_mul]
          dsimp only at hpart ⊢
          exact rearrange (by ac_rfl) hpart

/-- The record a cancel unlinks is the first with the id. -/
theorem unlink_of_cut {orderId : CString} {records : List OrderRecord}
    (cut : Cut (fun record : OrderRecord => record.orderId = orderId) records) :
    OrderEntry.unlink orderId records = some (cut.value, cut.before ++ cut.behind) := by
  obtain ⟨before, record, behind, rfl, hpassed, hskipped⟩ := cut
  induction before with
  | nil => exact if_pos (of_decide_eq_true hpassed)
  | cons current next ih =>
      have hcurrent : ¬ current.orderId = orderId :=
        of_decide_eq_false (hskipped current List.mem_cons_self)
      dsimp only
      rw [List.cons_append, OrderEntry.unlink, if_neg hcurrent,
        ih fun other hother => hskipped other (List.mem_cons_of_mem _ hother)]
      rfl

theorem setActiveOrders_spec (old new : Option Nat) :
    Triple (points address (.entry (entryFields entry old traderId)))
      (orderRecord.redirect (setActiveOrders address) none new) fun _ =>
        points address (.entry (entryFields entry new traderId)) := by
  rw [NodeLayout.redirect, setActiveOrders,
    ← mul_one (points address (EntryCell.entry (entryFields entry old traderId)))]
  apply loadEntry_bind
  exact (Triple.store _).last rfl fun _ part hpart => by rwa [mul_one] at hpart

theorem orderEntryCancel_spec (allocator : Allocator EntryCell) {fuel : Nat}
    (hfuel : entry.activeOrders.length ≤ fuel) (orderId : CString) :
    Triple (entryAt address entry) (orderEntryCancel fuel (some address) (some orderId))
      fun code => any fun entry' =>
        fact (Next allocator.Fails (.cancel orderId) entry code entry') *
          entryAt address entry' := by
  refine Triple.of_any fun ⟨head, traderId⟩ => ?_
  rw [orderEntryCancel]
  apply loadEntry_bind
  have hagree : ∀ (fields : OrderFields) (record : OrderRecord) (part : Heap EntryCell),
      holdsOrder fields record part →
        decide (fields.orderId = orderId) = decide (record.orderId = orderId) := by
    intro fields record part hpart
    rw [hpart.1, OrderRecord.fields]
  refine NodeLayout.unlinkFirst_bind setActiveOrders_spec hagree hfuel (fun hnone => ?_)
    fun cut current record next head' => ?_
  · refine Triple.pure fun part hpart => any_intro entry (fact_mul_apply.mpr
      ⟨Or.inl ?_, entryAt_intro head traderId hpart⟩)
    have hunlink : OrderEntry.unlink orderId entry.activeOrders = none :=
      OrderEntry.unlink_eq_none_iff.mpr fun record hrecord =>
        of_decide_eq_false (hnone record hrecord)
    rw [OrderEntry.call, OrderEntry.cancel, hunlink]
  · dsimp only
    apply NodeLayout.load_bind
    rw [mul_left_comm]
    refine Triple.of_fact_mul ?_
    rintro rfl
    rw [mul_left_comm]
    apply loadEntry_bind
    refine Triple.store_bind rfl ?_
    refine Triple.free_bind (mul_left_comm _ _ _) (Triple.pure fun part hpart => ?_)
    refine any_intro { entry with
      activeOrders := cut.before ++ cut.behind
      totalNotional := entry.totalNotional - cut.value.price * cut.value.quantity
      activeCount := entry.activeCount - 1 } (fact_mul_apply.mpr ⟨Or.inl ?_, ?_⟩)
    · rw [OrderEntry.call, OrderEntry.cancel, unlink_of_cut cut]
    · exact entryAt_intro head' traderId hpart

theorem orderEntryDestroy_spec {fuel : Nat} (hfuel : entry.activeOrders.length ≤ fuel) :
    Triple (entryAt address entry) (orderEntryDestroy fuel (some address)) fun _ => 1 := by
  refine Triple.of_any fun ⟨head, traderId⟩ => ?_
  rw [orderEntryDestroy]
  apply loadEntry_bind
  dsimp only
  rw [mul_left_comm]
  refine (NodeLayout.releaseAll_spec (fun record fields next order => ?_) hfuel).call rfl
    fun _ => ?_
  · rw [mul_comm, holdsOrder]
    exact Triple.of_fact_mul fun _ => Triple.free
  · rw [one_mul]
    apply loadEntry_bind
    dsimp only [entryFields]
    cases traderId with
    | none =>
        rw [release, textAt, mul_one, pure_bind]
        exact Triple.free
    | some text =>
        rw [release, textAt]
        exact Triple.free_bind (mul_comm _ _) Triple.free

end Calls

/-! ## Whole lives -/

theorem length_call_le (entry : OrderEntry) (call : OrderEntryCall) :
    (entry.call call).2.activeOrders.length ≤ entry.activeOrders.length + 1 := by
  cases call with
  | submit symbol price quantity isBuy =>
      rcases entry.submit_cases symbol price quantity isBuy with hnothing | ⟨_, _, hlinked⟩
      · rw [OrderEntry.call, hnothing]
        exact Nat.le_succ _
      · rw [OrderEntry.call, hlinked]
        exact le_rfl
  | cancel orderId =>
      rcases entry.cancel_cases orderId with
        ⟨_, hnothing⟩ | ⟨front, record, back, hrecords, _, _, _, hunlinked⟩
      · rw [OrderEntry.call, hnothing]
        exact Nat.le_succ _
      · rw [OrderEntry.call, hunlinked, hrecords]
        simp only [List.length_append, List.length_cons]
        omega

/-- The functions of an entry keep to it. -/
def represents (fuel : Nat) (config : OrderEntryConfig) :
    Component.Represents (fun allocator => component allocator fuel config) OrderEntry where
  holds := entryAt
  start := OrderEntry.create config
  next := Next
  ready := fun entry rest => entry.activeOrders.length + rest.length ≤ fuel
  create_spec := fun allocator => orderEntryCreate_spec allocator config
  call_spec := by
    intro allocator address entry call rest hfuel
    rw [List.length_cons] at hfuel
    have hstep : Triple (entryAt address entry)
        ((component allocator fuel config).call address call) fun code => any fun entry' =>
          fact (Next allocator.Fails call entry code entry') * entryAt address entry' := by
      cases call with
      | submit symbol price quantity isBuy =>
          exact orderEntrySubmit_spec allocator symbol price quantity isBuy
      | cancel orderId => exact orderEntryCancel_spec allocator (by omega) orderId
    refine hstep.weaken fun code part hpart => ?_
    obtain ⟨entry', hpart⟩ := hpart
    obtain ⟨hnext, hpart⟩ := fact_mul_apply.mp hpart
    refine any_intro entry' (fact_mul_apply.mpr ⟨⟨hnext, ?_⟩, hpart⟩)
    rcases hnext with hcall | ⟨_, _, _, rfl⟩
    · have hle := length_call_le entry call
      rw [← hcall] at hle
      dsimp only at hle
      omega
    · omega
  destroy_none := fun _ => rfl
  destroy_spec := fun _ address entry hfuel => orderEntryDestroy_spec (by simpa using hfuel)

/-- The return values of the calls on an entry. -/
def codes : OrderEntry → List OrderEntryCall → List Int
  | _, [] => []
  | entry, call :: rest => (entry.call call).1 :: codes (entry.call call).2 rest

/-- With an allocator that never gives up, every call is answered as `OrderEntry` does. -/
theorem codes_of_path {allocator : Allocator EntryCell} (hnever : ¬ allocator.Fails) {fuel : Nat}
    {config : OrderEntryConfig} {address : Nat} {calls : List OrderEntryCall}
    {start last : Moment EntryCell (List Int) OrderEntry}
    (hpath : Path ((represents fuel config).Answered allocator address) calls start last) :
    last.collected = start.collected ++ codes start.state calls := by
  induction hpath with
  | nil moment => exact (List.append_nil moment.collected).symm
  | @cons call rest before middle last hstep _ ih =>
      obtain ⟨code, -, hmiddle, hnext⟩ := hstep
      have hcall : (code, middle.state) = before.state.call call :=
        hnext.resolve_right fun hlost => hnever hlost.2.1.fails
      rw [ih, hmiddle, codes, ← hcall, List.append_assoc]
      rfl

/-- From `order_entry_create` to `order_entry_destroy`, whatever is submitted and cancelled
and whenever an allocation fails: no call reads or frees what is not allocated, and the
heap at the end is the one before. Every call returns and does what it does on `OrderEntry`,
but for a submit that is refused memory on the heap that it finds, which returns -1 and
changes nothing. When no memory is refused the return values are those of `OrderEntry`. -/
theorem entry_restores_heap (allocator : Allocator EntryCell) (config : OrderEntryConfig)
    (calls : List OrderEntryCall) (fuel : Nat) (hfuel : calls.length ≤ fuel)
    (heap : Heap EntryCell) :
    ∃ result, (component allocator fuel config).live calls heap = some (result, heap) ∧
      (represents fuel config).Outcome allocator calls heap result ∧
      (¬ allocator.Refuses (fun allocator => (component allocator fuel config).live calls) heap →
        result = some (codes (OrderEntry.create config) calls)) := by
  have hready : (represents fuel config).ready (represents fuel config).start calls := by
    simpa [represents, OrderEntry.create] using hfuel
  exact (represents fuel config).live_replies allocator hready heap
    fun _ hnever _ _ _ hpath => codes_of_path hnever hpath

theorem entry_restores_heap_cancel :
    ∃ result, (component Allocator.highest 2 OrderEntry.sampleConfig).live
        [.submit "AAPL".toList 10 2 true, .cancel "ORD1".toList] ∅ = some (result, ∅) ∧
      (represents 2 OrderEntry.sampleConfig).Outcome Allocator.highest
        [.submit "AAPL".toList 10 2 true, .cancel "ORD1".toList] ∅ result ∧
      (¬ (Allocator.highest : Allocator EntryCell).Refuses (fun allocator =>
          (component allocator 2 OrderEntry.sampleConfig).live
            [.submit "AAPL".toList 10 2 true, .cancel "ORD1".toList]) ∅ →
        result = some (codes (OrderEntry.create OrderEntry.sampleConfig)
          [.submit "AAPL".toList 10 2 true, .cancel "ORD1".toList])) :=
  entry_restores_heap Allocator.highest OrderEntry.sampleConfig _ 2 (by decide) ∅

end EntryMemory

end QuantTrading
