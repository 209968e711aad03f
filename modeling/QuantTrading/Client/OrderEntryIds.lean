import QuantTrading.Client.OrderEntry

/-! # The ids of submitted orders

`order_entry_submit` names an order after the number of active orders, which a cancel lowers.
An order submitted after a cancel therefore gets an id that was assigned before.
-/

namespace QuantTrading

namespace OrderEntry

/-- The submit passes the checks on the count and on the notional. -/
def Accepts (entry : OrderEntry) : OrderEntryCall → Prop
  | .submit _ price quantity _ => entry.activeCount < entry.maxOrders ∧
      entry.totalNotional + price * quantity ≤ entry.maxNotional
  | .cancel _ => False

instance (entry : OrderEntry) : (operation : OrderEntryCall) → Decidable (entry.Accepts operation)
  | .submit _ price quantity _ => inferInstanceAs (Decidable (entry.activeCount < entry.maxOrders ∧
      entry.totalNotional + price * quantity ≤ entry.maxNotional))
  | .cancel _ => .isFalse id

/-- The cancel finds an order with the id. -/
def Finds (entry : OrderEntry) : OrderEntryCall → Prop
  | .submit _ _ _ _ => False
  | .cancel orderId => ∃ record ∈ entry.activeOrders, record.orderId = orderId

instance (entry : OrderEntry) : (operation : OrderEntryCall) → Decidable (entry.Finds operation)
  | .submit _ _ _ _ => .isFalse id
  | .cancel orderId =>
      inferInstanceAs (Decidable (∃ record ∈ entry.activeOrders, record.orderId = orderId))

/-- What an accepted submit does. -/
theorem submit_of_accepts {entry : OrderEntry} {symbol : CString} {price : ℚ} {quantity : Int}
    {isBuy : Bool} (haccepts : entry.Accepts (.submit symbol price quantity isBuy)) :
    entry.perform (.submit symbol price quantity isBuy) =
      { entry with
        activeOrders := entry.newRecord symbol price quantity isBuy :: entry.activeOrders
        activeCount := entry.activeCount + 1
        totalNotional := entry.totalNotional + price * quantity
        nextAddress := entry.nextAddress + 1 } := by
  rw [perform, call, submit, if_neg (not_le.mpr haccepts.1), if_neg (not_lt.mpr haccepts.2)]

theorem submit_of_not_accepts {entry : OrderEntry} {symbol : CString} {price : ℚ}
    {quantity : Int} {isBuy : Bool}
    (hrefused : ¬ entry.Accepts (.submit symbol price quantity isBuy)) :
    entry.perform (.submit symbol price quantity isBuy) = entry := by
  rcases entry.submit_cases symbol price quantity isBuy with hnothing | ⟨hfree, hfits, _⟩
  · exact congrArg Prod.snd hnothing
  · exact absurd ⟨hfree, hfits⟩ hrefused

/-- What a cancel that finds its order does, when the ids are distinct and so are the
addresses. -/
theorem activeOrders_cancel {entry : OrderEntry}
    (haddresses : (entry.activeOrders.map OrderRecord.address).Nodup) {address : Nat}
    {orderId : CString}
    (hown : ∀ record ∈ entry.activeOrders, record.orderId = orderId ↔ record.address = address) :
    (entry.perform (.cancel orderId)).activeOrders =
      entry.activeOrders.filter fun record => record.address ≠ address := by
  change (entry.cancel orderId).2.activeOrders = _
  rcases entry.cancel_cases orderId with
    ⟨hnone, hnothing⟩ | ⟨front, record, back, hrecords, hid, _, _, hunlinked⟩
  · rw [hnothing, List.filter_eq_self.mpr]
    intro record hrecord
    simpa using fun heq => hnone record hrecord ((hown record hrecord).mpr heq)
  · have hmem : record ∈ entry.activeOrders := by simp [hrecords]
    obtain rfl : record.address = address := (hown record hmem).mp hid
    rw [hrecords, List.map_append, List.map_cons, List.nodup_middle, List.nodup_cons] at haddresses
    have hothers : ∀ other ∈ front ++ back, other.address ≠ record.address := by
      intro other hother heq
      apply haddresses.1
      rw [← List.map_append, ← heq]
      exact List.mem_map_of_mem hother
    rw [hunlinked, hrecords]
    dsimp only
    rw [List.filter_append, List.filter_cons_of_neg (by simp), ← List.filter_append,
      List.filter_eq_self.mpr]
    exact fun other hother => by simpa using hothers other hother

/-! ## Ids of active orders -/

/-- The active orders have distinct ids, and a cancel of one of these takes out its order
alone. -/
structure ActiveIdsUnique (entry : OrderEntry) : Prop where
  distinct : (entry.activeOrders.map OrderRecord.orderId).Nodup
  cancels : ∀ record ∈ entry.activeOrders,
    (entry.perform (.cancel record.orderId)).activeOrders =
      entry.activeOrders.filter fun other => other.address ≠ record.address

/-- An order is submitted only when no active order has the id that it gets. -/
def IdUnused (entry : OrderEntry) (operation : OrderEntryCall) : Prop :=
  entry.Accepts operation → ∀ record ∈ entry.activeOrders, record.orderId ≠ entry.nextOrderId

/-- Distinct ids, and addresses that were handed out once. -/
structure DistinctIds (entry : OrderEntry) : Prop where
  ids : (entry.activeOrders.map OrderRecord.orderId).Nodup
  addresses : (entry.activeOrders.map OrderRecord.address).Nodup
  allocated : ∀ record ∈ entry.activeOrders, record.address < entry.nextAddress

theorem DistinctIds.activeIdsUnique {entry : OrderEntry} (hdistinct : DistinctIds entry) :
    ActiveIdsUnique entry where
  distinct := hdistinct.ids
  cancels record hrecord := by
    apply activeOrders_cancel hdistinct.addresses
    intro other hother
    constructor
    · exact fun hid => congrArg OrderRecord.address
        (List.inj_on_of_nodup_map hdistinct.ids hother hrecord hid)
    · exact fun haddress => congrArg OrderRecord.orderId
        (List.inj_on_of_nodup_map hdistinct.addresses hother hrecord haddress)

theorem DistinctIds.create (config : OrderEntryConfig) : DistinctIds (create config) where
  ids := List.nodup_nil
  addresses := List.nodup_nil
  allocated _ hnone := absurd hnone List.not_mem_nil

theorem DistinctIds.perform {entry : OrderEntry} (hdistinct : DistinctIds entry)
    {operation : OrderEntryCall} (hunused : entry.IdUnused operation) :
    DistinctIds (entry.perform operation) := by
  cases operation with
  | submit symbol price quantity isBuy =>
      by_cases haccepts : entry.Accepts (.submit symbol price quantity isBuy)
      · rw [submit_of_accepts haccepts]
        refine ⟨?_, ?_, ?_⟩
        · refine List.nodup_cons.mpr ⟨fun hmem => ?_, hdistinct.ids⟩
          obtain ⟨record, hrecord, hid⟩ := List.mem_map.mp hmem
          exact hunused haccepts record hrecord hid
        · refine List.nodup_cons.mpr ⟨fun hmem => ?_, hdistinct.addresses⟩
          obtain ⟨record, hrecord, haddress⟩ := List.mem_map.mp hmem
          exact absurd haddress (hdistinct.allocated record hrecord).ne
        · intro record hrecord
          rcases List.mem_cons.mp hrecord with rfl | hold
          · exact Nat.lt_succ_self _
          · exact Nat.lt_succ_of_lt (hdistinct.allocated record hold)
      · rw [submit_of_not_accepts haccepts]
        exact hdistinct
  | cancel orderId =>
      change DistinctIds (entry.cancel orderId).2
      rcases entry.cancel_cases orderId with
        ⟨_, hnothing⟩ | ⟨front, record, back, hrecords, _, _, _, hunlinked⟩
      · rw [hnothing]
        exact hdistinct
      · rw [hunlinked]
        have hsublist : (front ++ back).Sublist entry.activeOrders := by
          rw [hrecords]
          exact List.Sublist.append_left (List.sublist_cons_self _ _) _
        exact ⟨hdistinct.ids.sublist (hsublist.map _), hdistinct.addresses.sublist (hsublist.map _),
          fun other hother => hdistinct.allocated other (hsublist.subset hother)⟩

/-- Active orders have distinct ids in every state if and only if no order is submitted while
the order named after the new count is active. -/
theorem activeIdsUnique_iff (config : OrderEntryConfig) (operations : List OrderEntryCall) :
    (∀ count, ActiveIdsUnique
        (Transition.run perform (create config) (operations.take count))) ↔
      Transition.Along perform IdUnused (create config) operations := by
  refine Transition.forall_states_iff_along perform DistinctIds ActiveIdsUnique
    (fun _ hdistinct => hdistinct.activeIdsUnique)
    (fun _ _ hdistinct hunused => hdistinct.perform hunused) (fun entry operation _ hused => ?_)
    (DistinctIds.create config) operations
  simp only [IdUnused, not_forall, not_not] at hused
  obtain ⟨haccepts, record, hrecord, hid⟩ := hused
  intro hunique
  cases operation with
  | submit symbol price quantity isBuy =>
      have hdistinct := hunique.distinct
      rw [submit_of_accepts haccepts] at hdistinct
      exact (List.nodup_cons.mp hdistinct).1 (List.mem_map.mpr ⟨record, hrecord, hid⟩)
  | cancel orderId => exact haccepts

end OrderEntry

/-! ## Ids of all orders -/

/-- An entry with the ids that submits assigned, and whether a cancel found its order. -/
structure OrderEntryHistory where
  entry : OrderEntry
  issued : List (Nat × CString)
  hasCanceled : Bool

namespace OrderEntryHistory

open OrderEntry

/-- The history of a new entry. -/
def create (config : OrderEntryConfig) : OrderEntryHistory where
  entry := OrderEntry.create config
  issued := []
  hasCanceled := false

/-- The history after a call. -/
def perform (history : OrderEntryHistory) (operation : OrderEntryCall) : OrderEntryHistory where
  entry := history.entry.perform operation
  issued :=
    if history.entry.Accepts operation then
      (history.entry.nextAddress, history.entry.nextOrderId) :: history.issued
    else history.issued
  hasCanceled := history.hasCanceled || decide (history.entry.Finds operation)

/-- The active orders have distinct ids, and a cancel of an id that a submit assigned takes out
the order of that submit, when it is active, and no other. -/
structure IdsUnique (history : OrderEntryHistory) : Prop where
  distinct : (history.entry.activeOrders.map OrderRecord.orderId).Nodup
  cancels : ∀ address orderId, (address, orderId) ∈ history.issued →
    (history.entry.perform (.cancel orderId)).activeOrders =
      history.entry.activeOrders.filter fun record => record.address ≠ address

/-- No order is submitted after one was cancelled. -/
def NoSubmitAfterCancel (history : OrderEntryHistory) (operation : OrderEntryCall) : Prop :=
  history.entry.Accepts operation → history.hasCanceled = false

instance (history : OrderEntryHistory) (operation : OrderEntryCall) :
    Decidable (history.NoSubmitAfterCancel operation) :=
  inferInstanceAs (Decidable (_ → _))

/-- The id that the order at an address has while no order was cancelled. -/
def numberedId (address : Nat) : CString :=
  "ORD".toList ++ printLong (address + 1)

theorem numberedId_injective {first second : Nat} (heq : numberedId first = numberedId second) :
    first = second := by
  have hnumber := printLong_injective (List.append_cancel_left heq)
  omega

/-- The ids are numbered in the order of the submits, up to the first cancel. -/
structure Numbered (config : OrderEntryConfig) (history : OrderEntryHistory) : Prop where
  maxOrders_eq : history.entry.maxOrders = config.maxOrders
  issued_iff : ∀ address orderId, (address, orderId) ∈ history.issued ↔
    address < history.entry.nextAddress ∧ orderId = numberedId address
  active : ∀ record ∈ history.entry.activeOrders, record.address < history.entry.nextAddress ∧
    record.orderId = numberedId record.address
  addresses : (history.entry.activeOrders.map OrderRecord.address).Nodup
  fits : (history.entry.nextAddress : Int) ≤ intMax
  activeCount : if history.hasCanceled then
      history.entry.activeCount < history.entry.nextAddress
    else history.entry.activeCount = history.entry.nextAddress
  length_eq : history.entry.activeCount = history.entry.activeOrders.length

/-- The id of a new order is not cut off. -/
theorem nextOrderId_eq {entry : OrderEntry} {count : Nat} (hcount : entry.activeCount = count)
    (hfits : (count : Int) + 1 ≤ intMax) : entry.nextOrderId = numberedId count := by
  have hdigits : (printLong ((count : Int) + 1)).length ≤ 20 :=
    length_printLong_le ⟨count + 1, by omega, by unfold intMax at hfits; omega⟩
  rw [nextOrderId, hcount, snprintf, List.take_of_length_le]
  · rfl
  · rw [List.length_append]
    have hname : "ORD".toList.length = 3 := rfl
    omega

theorem Numbered.create (config : OrderEntryConfig) : Numbered config (create config) where
  maxOrders_eq := rfl
  issued_iff _ _ := by
    constructor
    · exact fun hnone => absurd hnone List.not_mem_nil
    · exact fun hnone => absurd hnone.1 (Nat.not_lt_zero _)
  active _ hnone := absurd hnone List.not_mem_nil
  addresses := List.nodup_nil
  fits := (by decide : (0 : Int) ≤ intMax)
  activeCount := rfl
  length_eq := rfl

theorem Numbered.idsUnique {config : OrderEntryConfig} {history : OrderEntryHistory}
    (hnumbered : Numbered config history) : IdsUnique history where
  distinct := by
    have hids : history.entry.activeOrders.map OrderRecord.orderId =
        (history.entry.activeOrders.map OrderRecord.address).map numberedId := by
      rw [List.map_map]
      exact List.map_congr_left fun record hrecord => (hnumbered.active record hrecord).2
    rw [hids]
    exact hnumbered.addresses.map fun _ _ heq => numberedId_injective heq
  cancels address orderId hissued := by
    obtain ⟨_, rfl⟩ := (hnumbered.issued_iff address orderId).mp hissued
    apply activeOrders_cancel hnumbered.addresses
    intro record hrecord
    rw [(hnumbered.active record hrecord).2]
    exact ⟨numberedId_injective, congrArg numberedId⟩

theorem Numbered.count_le {config : OrderEntryConfig} {history : OrderEntryHistory}
    (hnumbered : Numbered config history) :
    history.entry.activeCount ≤ history.entry.nextAddress := by
  have hcount := hnumbered.activeCount
  split_ifs at hcount with hcanceled
  · exact hcount.le
  · exact hcount.le

/-- A submit before the first cancel gives its order the next number. -/
theorem Numbered.submit {config : OrderEntryConfig} (hmax : config.maxOrders ≤ intMax)
    {history : OrderEntryHistory} (hnumbered : Numbered config history)
    (hcanceled : history.hasCanceled = false) {symbol : CString} {price : ℚ} {quantity : Int}
    {isBuy : Bool} (haccepts : history.entry.Accepts (.submit symbol price quantity isBuy)) :
    Numbered config (history.perform (.submit symbol price quantity isBuy)) := by
  have hcount := hnumbered.activeCount
  rw [hcanceled] at hcount
  change history.entry.activeCount = history.entry.nextAddress at hcount
  have hfits : (history.entry.nextAddress : Int) + 1 ≤ intMax := by
    have hfree := haccepts.1
    rw [hnumbered.maxOrders_eq] at hfree
    omega
  have hid := nextOrderId_eq hcount hfits
  unfold perform
  rw [submit_of_accepts haccepts, if_pos haccepts, hcanceled, Bool.false_or]
  constructor
  case maxOrders_eq => exact hnumbered.maxOrders_eq
  case issued_iff =>
    intro address orderId
    rw [List.mem_cons, hnumbered.issued_iff, Prod.mk.injEq, hid]
    dsimp only
    constructor
    · rintro (⟨rfl, rfl⟩ | ⟨hold, rfl⟩)
      · exact ⟨Nat.lt_succ_self _, rfl⟩
      · exact ⟨Nat.lt_succ_of_lt hold, rfl⟩
    · rintro ⟨haddress, rfl⟩
      rcases Nat.lt_succ_iff_lt_or_eq.mp haddress with hold | rfl
      · exact Or.inr ⟨hold, rfl⟩
      · exact Or.inl ⟨rfl, rfl⟩
  case active =>
    intro record hrecord
    rcases List.mem_cons.mp hrecord with rfl | hold
    · exact ⟨Nat.lt_succ_self _, hid⟩
    · exact (hnumbered.active record hold).imp_left Nat.lt_succ_of_lt
  case addresses =>
    refine List.nodup_cons.mpr ⟨fun hmem => ?_, hnumbered.addresses⟩
    obtain ⟨record, hrecord, haddress⟩ := List.mem_map.mp hmem
    exact absurd haddress (hnumbered.active record hrecord).1.ne
  case fits =>
    dsimp only
    rwa [Nat.cast_succ]
  case activeCount =>
    change history.entry.activeCount + 1 = ((history.entry.nextAddress + 1 : Nat) : Int)
    rw [hcount, Nat.cast_succ]
  case length_eq =>
    dsimp only
    rw [hnumbered.length_eq, List.length_cons, Nat.cast_succ]

/-- A cancel assigns no id. -/
theorem Numbered.cancel {config : OrderEntryConfig} {history : OrderEntryHistory}
    (hnumbered : Numbered config history) (orderId : CString) :
    Numbered config (history.perform (.cancel orderId)) := by
  have hle := hnumbered.count_le
  have hlength := hnumbered.length_eq
  rcases history.entry.cancel_cases orderId with
    ⟨hnone, hnothing⟩ | ⟨front, record, back, hrecords, hid, _, _, hunlinked⟩
  · have hsame : history.perform (.cancel orderId) = history := by
      have hfinds : ¬ history.entry.Finds (.cancel orderId) := by
        rintro ⟨record, hrecord, hid⟩
        exact hnone record hrecord hid
      have hentry : history.entry.perform (.cancel orderId) = history.entry :=
        congrArg Prod.snd hnothing
      unfold perform
      rw [hentry, decide_eq_false hfinds, Bool.or_false]
      rfl
    rw [hsame]
    exact hnumbered
  · have hfinds : history.entry.Finds (.cancel orderId) :=
      ⟨record, by simp [hrecords], hid⟩
    have hsublist : (front ++ back).Sublist history.entry.activeOrders := by
      rw [hrecords]
      exact List.Sublist.append_left (List.sublist_cons_self _ _) _
    have hentry := congrArg Prod.snd hunlinked
    change history.entry.perform (.cancel orderId) = _ at hentry
    unfold perform
    rw [hentry, decide_eq_true hfinds, Bool.or_true]
    constructor
    case maxOrders_eq => exact hnumbered.maxOrders_eq
    case issued_iff => exact hnumbered.issued_iff
    case active => exact fun other hother => hnumbered.active other (hsublist.subset hother)
    case addresses => exact hnumbered.addresses.sublist (hsublist.map _)
    case fits => exact hnumbered.fits
    case activeCount =>
      change history.entry.activeCount - 1 < history.entry.nextAddress
      omega
    case length_eq =>
      dsimp only
      rw [hlength, hrecords, List.length_append, List.length_append, List.length_cons]
      omega

theorem Numbered.perform {config : OrderEntryConfig} (hmax : config.maxOrders ≤ intMax)
    {history : OrderEntryHistory} (hnumbered : Numbered config history)
    {operation : OrderEntryCall} (hallowed : history.NoSubmitAfterCancel operation) :
    Numbered config (history.perform operation) := by
  cases operation with
  | submit symbol price quantity isBuy =>
      by_cases haccepts : history.entry.Accepts (.submit symbol price quantity isBuy)
      · exact hnumbered.submit hmax (hallowed haccepts) haccepts
      · have hsame : history.perform (.submit symbol price quantity isBuy) = history := by
          unfold OrderEntryHistory.perform
          rw [submit_of_not_accepts haccepts, if_neg haccepts]
          change ({ history with hasCanceled := history.hasCanceled || false } : _) = history
          rw [Bool.or_false]
        rw [hsame]
        exact hnumbered
  | cancel orderId => exact hnumbered.cancel orderId

/-- An order submitted after a cancel gets an id that another submit assigned. -/
theorem Numbered.not_idsUnique {config : OrderEntryConfig} {history : OrderEntryHistory}
    (hnumbered : Numbered config history) {operation : OrderEntryCall}
    (hnot : ¬ history.NoSubmitAfterCancel operation) :
    ¬ IdsUnique (history.perform operation) := by
  rw [NoSubmitAfterCancel, Classical.not_imp, Bool.not_eq_false] at hnot
  obtain ⟨haccepts, hcanceled⟩ := hnot
  intro hunique
  cases operation with
  | submit symbol price quantity isBuy =>
      have hless := hnumbered.activeCount
      rw [if_pos hcanceled] at hless
      have hlengthEq := hnumbered.length_eq
      obtain ⟨count, hcount⟩ : ∃ count : Nat, history.entry.activeCount = count := ⟨_, hlengthEq⟩
      have hearlier : count < history.entry.nextAddress := by omega
      have hid : history.entry.nextOrderId = numberedId count :=
        nextOrderId_eq hcount (by have := hnumbered.fits; omega)
      have hissued : (count, numberedId count) ∈
          (history.perform (.submit symbol price quantity isBuy)).issued := by
        unfold OrderEntryHistory.perform
        rw [if_pos haccepts]
        exact List.mem_cons_of_mem _ ((hnumbered.issued_iff _ _).mpr ⟨hearlier, rfl⟩)
      -- the cancel takes out the new order, which is not the one at this address
      have hcancel := hunique.cancels count (numberedId count) hissued
      change ((history.entry.perform (.submit symbol price quantity isBuy)).cancel
        (numberedId count)).2.activeOrders = List.filter _
          (history.entry.perform (.submit symbol price quantity isBuy)).activeOrders at hcancel
      have hunlink : unlink (numberedId count)
          (history.entry.newRecord symbol price quantity isBuy :: history.entry.activeOrders) =
          some (history.entry.newRecord symbol price quantity isBuy,
            history.entry.activeOrders) := by
        rw [unlink, if_pos]
        exact hid
      rw [submit_of_accepts haccepts, OrderEntry.cancel] at hcancel
      dsimp only at hcancel
      rw [hunlink, List.filter_cons_of_pos] at hcancel
      · have hnew : history.entry.newRecord symbol price quantity isBuy ∈
            history.entry.activeOrders := by
          dsimp only at hcancel
          rw [hcancel]
          exact List.mem_cons_self
        exact absurd rfl (hnumbered.active _ hnew).1.ne
      · exact decide_eq_true hearlier.ne'
  | cancel orderId => exact haccepts

/-- Every id that a submit assigns names its order alone, in every state that submits and
cancels lead to, if and only if no order is submitted after one was cancelled. -/
theorem idsUnique_iff (config : OrderEntryConfig) (hmax : config.maxOrders ≤ intMax)
    (operations : List OrderEntryCall) :
    (∀ count, IdsUnique (Transition.run perform (create config) (operations.take count))) ↔
      Transition.Along perform NoSubmitAfterCancel (create config) operations :=
  Transition.forall_states_iff_along perform (Numbered config) IdsUnique
    (fun _ hnumbered => hnumbered.idsUnique)
    (fun _ _ hnumbered hallowed => hnumbered.perform hmax hallowed)
    (fun _ _ hnumbered hnot => hnumbered.not_idsUnique hnot) (Numbered.create config) operations

theorem idsUnique_submit_cancel :
    let operations : List OrderEntryCall :=
      [.submit "AAPL".toList 10 1 true, .submit "AAPL".toList 11 1 true, .cancel "ORD1".toList]
    ∀ count, IdsUnique
      (Transition.run perform (create sampleConfig) (operations.take count)) := by
  intro operations
  apply (idsUnique_iff sampleConfig (by decide) operations).mpr
  decide +kernel

/-- After a cancel of the first of two orders, the third is named like the second. -/
theorem ids_repeat_after_cancel :
    let operations : List OrderEntryCall :=
      [.submit "AAPL".toList 10 1 true, .submit "AAPL".toList 11 1 true, .cancel "ORD1".toList,
        .submit "AAPL".toList 12 1 true]
    ((Transition.run perform (create sampleConfig) operations).entry.activeOrders.map
        OrderRecord.orderId = ["ORD2".toList, "ORD2".toList]) ∧
      ¬ ∀ count, IdsUnique
        (Transition.run perform (create sampleConfig) (operations.take count)) := by
  intro operations
  have hids : (Transition.run perform (create sampleConfig) operations).entry.activeOrders.map
      OrderRecord.orderId = ["ORD2".toList, "ORD2".toList] := by
    decide +kernel
  refine ⟨hids, fun hunique => ?_⟩
  have hdistinct := (hunique 4).distinct
  change ((Transition.run perform (create sampleConfig) operations).entry.activeOrders.map
    OrderRecord.orderId).Nodup at hdistinct
  rw [hids] at hdistinct
  exact absurd hdistinct (by decide)

end OrderEntryHistory

end QuantTrading
