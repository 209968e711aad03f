import QuantTrading.Client.ClientCommands
import QuantTrading.Foundation.Transition
import Mathlib.Algebra.BigOperators.Group.List.Basic
import Mathlib.Algebra.Order.Ring.Rat
import Mathlib.Tactic.Linarith

/-! # Order entry

The client's own record of its active orders, with a limit on their number and one on their
total notional. Both are checked when an order is submitted. A cancel takes the notional of
its order back, and one that was negative raises the total.
-/

namespace QuantTrading

/-- `struct OrderRecord`. The address tells records apart. -/
structure OrderRecord where
  address : Nat
  orderId : CString
  symbol : CString
  price : ℚ
  quantity : Int
  isBuy : Bool
deriving DecidableEq, Repr

/-- The notional of an order. -/
def OrderRecord.notional (record : OrderRecord) : ℚ :=
  record.price * record.quantity

/-- `OrderEntryConfig`. -/
structure OrderEntryConfig where
  traderId : CString
  maxOrders : Int
  maxNotional : ℚ
deriving DecidableEq, Repr

/-- `struct OrderEntry`, the newest record first: `calloc` returns the addresses in ascending
order. -/
structure OrderEntry where
  activeOrders : List OrderRecord
  activeCount : Int
  totalNotional : ℚ
  maxOrders : Int
  maxNotional : ℚ
  traderId : CString
  nextAddress : Nat
deriving DecidableEq, Repr

/-- A call on an entry. -/
inductive OrderEntryCall where
  | submit (symbol : CString) (price : ℚ) (quantity : Int) (isBuy : Bool)
  | cancel (orderId : CString)

namespace OrderEntry

/-- `order_entry_create`. -/
def create (config : OrderEntryConfig) : OrderEntry where
  activeOrders := []
  activeCount := 0
  totalNotional := 0
  maxOrders := config.maxOrders
  maxNotional := config.maxNotional
  traderId := config.traderId
  nextAddress := 0

/-- The `order_id` that the next record gets: `"ORD%d"` in 32 characters. -/
def nextOrderId (entry : OrderEntry) : CString :=
  snprintf 32 ("ORD".toList ++ printLong (entry.activeCount + 1))

/-- The record that `order_entry_submit` fills in. -/
def newRecord (entry : OrderEntry) (symbol : CString) (price : ℚ) (quantity : Int)
    (isBuy : Bool) : OrderRecord where
  address := entry.nextAddress
  orderId := entry.nextOrderId
  symbol := symbol.take 15
  price := price
  quantity := quantity
  isBuy := isBuy

/-- `order_entry_submit`: the return value and the entry after the call. -/
def submit (entry : OrderEntry) (symbol : CString) (price : ℚ) (quantity : Int) (isBuy : Bool) :
    Int × OrderEntry :=
  let newNotional := price * quantity
  if entry.maxOrders ≤ entry.activeCount then (-1, entry)
  else if entry.maxNotional < entry.totalNotional + newNotional then (-1, entry)
  else
    (0, { entry with
      activeOrders := entry.newRecord symbol price quantity isBuy :: entry.activeOrders
      activeCount := entry.activeCount + 1
      totalNotional := entry.totalNotional + newNotional
      nextAddress := entry.nextAddress + 1 })

/-- The loop of `order_entry_cancel`: the first record with the id, and the records that stay
linked. -/
def unlink (orderId : CString) : List OrderRecord → Option (OrderRecord × List OrderRecord)
  | [] => none
  | current :: next =>
      if current.orderId = orderId then some (current, next)
      else (unlink orderId next).map fun (record, rest) => (record, current :: rest)

/-- `order_entry_cancel`: the return value and the entry after the call. -/
def cancel (entry : OrderEntry) (orderId : CString) : Int × OrderEntry :=
  match unlink orderId entry.activeOrders with
  | some (record, rest) =>
      (0, { entry with
        activeOrders := rest
        totalNotional := entry.totalNotional - record.price * record.quantity
        activeCount := entry.activeCount - 1 })
  | none => (-1, entry)

/-- A call: the return value and the entry after it. -/
def call (entry : OrderEntry) : OrderEntryCall → Int × OrderEntry
  | .submit symbol price quantity isBuy => entry.submit symbol price quantity isBuy
  | .cancel orderId => entry.cancel orderId

/-- The entry after a call. -/
def perform (entry : OrderEntry) (operation : OrderEntryCall) : OrderEntry :=
  (entry.call operation).2

/-! ## What a call does -/

theorem unlink_eq_some {orderId : CString} {records rest : List OrderRecord}
    {record : OrderRecord} (hunlink : unlink orderId records = some (record, rest)) :
    ∃ front back, records = front ++ record :: back ∧ rest = front ++ back ∧
      record.orderId = orderId ∧ ∀ other ∈ front, other.orderId ≠ orderId := by
  induction records generalizing rest with
  | nil => cases hunlink
  | cons current next ih =>
      rw [unlink] at hunlink
      split_ifs at hunlink with hsame
      · cases hunlink
        exact ⟨[], next, rfl, rfl, hsame, fun _ hnone => absurd hnone List.not_mem_nil⟩
      · obtain ⟨⟨found, linked⟩, hfound, heq⟩ := Option.map_eq_some_iff.mp hunlink
        cases heq
        obtain ⟨front, back, rfl, rfl, hid, hfront⟩ := ih hfound
        refine ⟨current :: front, back, rfl, rfl, hid, fun other hother => ?_⟩
        rcases List.mem_cons.mp hother with rfl | hfront'
        · exact hsame
        · exact hfront other hfront'

theorem unlink_eq_none_iff {orderId : CString} {records : List OrderRecord} :
    unlink orderId records = none ↔ ∀ record ∈ records, record.orderId ≠ orderId := by
  induction records with
  | nil => simp [unlink]
  | cons current next ih =>
      rw [unlink, List.forall_mem_cons]
      split_ifs with hsame
      · simp [hsame]
      · rw [Option.map_eq_none_iff, ih]
        exact (and_iff_right hsame).symm

/-- What a submit does: nothing, or it links a record within both limits. -/
theorem submit_cases (entry : OrderEntry) (symbol : CString) (price : ℚ) (quantity : Int)
    (isBuy : Bool) :
    (entry.submit symbol price quantity isBuy = (-1, entry)) ∨
      (entry.activeCount < entry.maxOrders ∧
        entry.totalNotional + price * quantity ≤ entry.maxNotional ∧
        entry.submit symbol price quantity isBuy =
          (0, { entry with
            activeOrders := entry.newRecord symbol price quantity isBuy :: entry.activeOrders
            activeCount := entry.activeCount + 1
            totalNotional := entry.totalNotional + price * quantity
            nextAddress := entry.nextAddress + 1 })) := by
  unfold submit
  dsimp only
  split_ifs with hfull hlarge
  · exact Or.inl rfl
  · exact Or.inl rfl
  · exact Or.inr ⟨lt_of_not_ge hfull, le_of_not_gt hlarge, rfl⟩

/-- What a cancel does: nothing when no record has the id, else it unlinks the first that has. -/
theorem cancel_cases (entry : OrderEntry) (orderId : CString) :
    ((∀ record ∈ entry.activeOrders, record.orderId ≠ orderId) ∧
        entry.cancel orderId = (-1, entry)) ∨
      ∃ front record back, entry.activeOrders = front ++ record :: back ∧
        record.orderId = orderId ∧ (∀ other ∈ front, other.orderId ≠ orderId) ∧
        unlink orderId entry.activeOrders = some (record, front ++ back) ∧
        entry.cancel orderId =
          (0, { entry with
            activeOrders := front ++ back
            totalNotional := entry.totalNotional - record.notional
            activeCount := entry.activeCount - 1 }) := by
  unfold cancel
  cases hunlink : unlink orderId entry.activeOrders with
  | none => exact Or.inl ⟨unlink_eq_none_iff.mp hunlink, rfl⟩
  | some found =>
      obtain ⟨record, rest⟩ := found
      obtain ⟨front, back, hrecords, rfl, hid, hfront⟩ := unlink_eq_some hunlink
      exact Or.inr ⟨front, record, back, hrecords, hid, hfront, rfl, rfl⟩

/-! ## The risk limits -/

/-- The notional of the active orders together. -/
def activeNotional (entry : OrderEntry) : ℚ :=
  (entry.activeOrders.map OrderRecord.notional).sum

/-- The count and the total are those of the active orders and within the limits, and a call
that fails changes nothing. -/
structure RiskLimits (config : OrderEntryConfig) (entry : OrderEntry) : Prop where
  activeCount_eq : entry.activeCount = entry.activeOrders.length
  activeCount_le : entry.activeCount ≤ config.maxOrders
  totalNotional_eq : entry.totalNotional = entry.activeNotional
  totalNotional_le : entry.totalNotional ≤ config.maxNotional
  unchanged : ∀ operation, (entry.call operation).1 = -1 → entry.perform operation = entry

/-- The order that a cancel takes out did not make room for others: its notional is not negative
by more than the total is below its limit. -/
def RoomAfterCancel (entry : OrderEntry) : OrderEntryCall → Prop
  | .submit _ _ _ _ => True
  | .cancel orderId => ∀ unlinked ∈ unlink orderId entry.activeOrders,
      entry.totalNotional - entry.maxNotional ≤ unlinked.1.notional

instance (entry : OrderEntry) :
    (operation : OrderEntryCall) → Decidable (entry.RoomAfterCancel operation)
  | .submit _ _ _ _ => .isTrue trivial
  | .cancel orderId =>
      inferInstanceAs (Decidable (∀ unlinked ∈ unlink orderId entry.activeOrders,
        entry.totalNotional - entry.maxNotional ≤ unlinked.1.notional))

theorem unchanged_of_failed (entry : OrderEntry) (operation : OrderEntryCall)
    (hfailed : (entry.call operation).1 = -1) : entry.perform operation = entry := by
  cases operation with
  | submit symbol price quantity isBuy =>
      rcases entry.submit_cases symbol price quantity isBuy with hnothing | ⟨_, _, hlinked⟩
      · exact congrArg Prod.snd hnothing
      · rw [call, hlinked] at hfailed
        cases hfailed
  | cancel orderId =>
      rcases entry.cancel_cases orderId with ⟨_, hnothing⟩ | ⟨_, _, _, _, _, _, _, hunlinked⟩
      · exact congrArg Prod.snd hnothing
      · rw [call, hunlinked] at hfailed
        cases hfailed

/-- A state in which the limits hold, with the limits as they were configured. -/
structure Limited (config : OrderEntryConfig) (entry : OrderEntry) : Prop
    extends RiskLimits config entry where
  maxOrders_eq : entry.maxOrders = config.maxOrders
  maxNotional_eq : entry.maxNotional = config.maxNotional

theorem Limited.create {config : OrderEntryConfig} (hmaxOrders : 0 ≤ config.maxOrders)
    (hmaxNotional : 0 ≤ config.maxNotional) : Limited config (create config) where
  activeCount_eq := rfl
  activeCount_le := hmaxOrders
  totalNotional_eq := rfl
  totalNotional_le := hmaxNotional
  unchanged := unchanged_of_failed _
  maxOrders_eq := rfl
  maxNotional_eq := rfl

/-- Taking a record out of the list takes its notional out of the sum. -/
theorem sum_notional_append_cons (front back : List OrderRecord) (record : OrderRecord) :
    ((front ++ record :: back).map OrderRecord.notional).sum =
      record.notional + ((front ++ back).map OrderRecord.notional).sum := by
  simp only [List.map_append, List.map_cons, List.sum_append, List.sum_cons]
  ring

/-- A submit keeps the limits, which it tests. -/
theorem Limited.submit {config : OrderEntryConfig} {entry : OrderEntry}
    (hlimited : Limited config entry) (symbol : CString) (price : ℚ) (quantity : Int)
    (isBuy : Bool) : Limited config (entry.submit symbol price quantity isBuy).2 := by
  have hcount := hlimited.activeCount_eq
  have htotal := hlimited.totalNotional_eq
  have hmaxOrders := hlimited.maxOrders_eq
  rcases entry.submit_cases symbol price quantity isBuy with hnothing | ⟨hfree, hfits, hlinked⟩
  · rw [hnothing]
    exact hlimited
  · rw [hlinked]
    refine ⟨⟨?_, ?_, ?_, ?_, unchanged_of_failed _⟩, hmaxOrders, hlimited.maxNotional_eq⟩
    · dsimp only
      rw [hcount, List.length_cons, Nat.cast_succ]
    · dsimp only
      omega
    · dsimp only [activeNotional]
      rw [htotal, activeNotional, List.map_cons, List.sum_cons, add_comm]
      rfl
    · exact hfits.trans_eq hlimited.maxNotional_eq

/-- A cancel keeps the limits where it leaves room. -/
theorem Limited.cancel {config : OrderEntryConfig} {entry : OrderEntry}
    (hlimited : Limited config entry) {orderId : CString}
    (hroom : entry.RoomAfterCancel (.cancel orderId)) :
    Limited config (entry.cancel orderId).2 := by
  have hcount := hlimited.activeCount_eq
  have hmost := hlimited.activeCount_le
  have htotal := hlimited.totalNotional_eq
  rcases entry.cancel_cases orderId with
    ⟨_, hnothing⟩ | ⟨front, record, back, hrecords, _, _, hunlink, hunlinked⟩
  · rw [hnothing]
    exact hlimited
  · rw [hunlinked]
    have hcovered := hroom _ hunlink
    dsimp only at hcovered
    have hsum := sum_notional_append_cons front back record
    rw [activeNotional, hrecords, hsum] at htotal
    refine ⟨⟨?_, ?_, ?_, ?_, unchanged_of_failed _⟩, hlimited.maxOrders_eq,
      hlimited.maxNotional_eq⟩
    · dsimp only
      rw [hcount, hrecords, List.length_append, List.length_append, List.length_cons]
      omega
    · dsimp only
      omega
    · dsimp only [activeNotional]
      rw [htotal]
      ring
    · dsimp only
      rw [← hlimited.maxNotional_eq]
      linarith

theorem Limited.perform {config : OrderEntryConfig} {entry : OrderEntry}
    (hlimited : Limited config entry) {operation : OrderEntryCall}
    (hroom : entry.RoomAfterCancel operation) : Limited config (entry.perform operation) := by
  cases operation with
  | submit symbol price quantity isBuy => exact hlimited.submit symbol price quantity isBuy
  | cancel orderId => exact hlimited.cancel hroom

/-- A cancel without room raises the total above its limit. -/
theorem Limited.not_riskLimits {config : OrderEntryConfig} {entry : OrderEntry}
    (hlimited : Limited config entry) {operation : OrderEntryCall}
    (hroom : ¬ entry.RoomAfterCancel operation) :
    ¬ RiskLimits config (entry.perform operation) := by
  intro hlimits
  apply hroom
  cases operation with
  | submit symbol price quantity isBuy => trivial
  | cancel orderId =>
      intro unlinked hunlink
      have htotal := hlimits.totalNotional_le
      rw [OrderEntry.perform, call, OrderEntry.cancel, Option.mem_def.mp hunlink] at htotal
      change entry.totalNotional - unlinked.1.notional ≤ config.maxNotional at htotal
      rw [← hlimited.maxNotional_eq] at htotal
      linarith

/-- The limits hold in every state that submits and cancels lead to if and only if every cancel
leaves room: the order it takes out does not have a negative notional that others rely on. -/
theorem riskLimits_iff (config : OrderEntryConfig) (hmaxOrders : 0 ≤ config.maxOrders)
    (hmaxNotional : 0 ≤ config.maxNotional) (operations : List OrderEntryCall) :
    (∀ count, RiskLimits config
        (Transition.run perform (create config) (operations.take count))) ↔
      Transition.Along perform RoomAfterCancel (create config) operations :=
  Transition.forall_states_iff_along perform (Limited config) (RiskLimits config)
    (fun _ hlimited => hlimited.toRiskLimits) (fun _ _ hlimited hroom => hlimited.perform hroom)
    (fun _ _ hlimited hroom => hlimited.not_riskLimits hroom)
    (Limited.create hmaxOrders hmaxNotional) operations

/-- Limits of ten orders and a notional of 50. -/
def sampleConfig : OrderEntryConfig where
  traderId := "T".toList
  maxOrders := 10
  maxNotional := 50

theorem riskLimits_submit_cancel :
    let operations : List OrderEntryCall :=
      [.submit "AAPL".toList 10 2 true, .cancel "ORD1".toList]
    ∀ count, RiskLimits sampleConfig
      (Transition.run perform (create sampleConfig) (operations.take count)) := by
  intro operations
  apply (riskLimits_iff sampleConfig (by decide) (by decide +kernel) operations).mpr
  decide +kernel

/-- An order at -100 makes room for one at 100; when it is cancelled the total is 100. -/
theorem cancel_exceeds_notional :
    let operations : List OrderEntryCall :=
      [.submit "AAPL".toList (-100) 1 true, .submit "AAPL".toList 100 1 true,
        .cancel "ORD1".toList]
    (Transition.run perform (create sampleConfig) operations).totalNotional = 100 ∧
      ¬ ∀ count, RiskLimits sampleConfig
        (Transition.run perform (create sampleConfig) (operations.take count)) := by
  intro operations
  have htotal : (Transition.run perform (create sampleConfig) operations).totalNotional = 100 := by
    decide +kernel
  refine ⟨htotal, fun hlimits => ?_⟩
  have hmost := (hlimits 3).totalNotional_le
  change (Transition.run perform (create sampleConfig) operations).totalNotional ≤ 50 at hmost
  rw [htotal] at hmost
  exact absurd hmost (by decide +kernel)

end OrderEntry

end QuantTrading
