import QuantTrading.Foundation.SeparationLogic

/-! # Linked lists on a heap

A cell of a list holds a record and the pointer to the next cell. A record may own
further cells; `holds record value` says that it represents a value together with what it
owns. The loops below follow the pointers: search, unlinking the first or all of the
records that pass a test, releasing a whole list, and walks that only read.
-/

namespace Separation

open Assertion

/-- How a cell of a list is laid out. -/
structure NodeLayout (κ ρ : Type) where
  node : ρ → Option Nat → κ
  read : κ → Option (ρ × Option Nat)
  read_node : ∀ record next, read (node record next) = some (record, next)

/-- A list cut at the first value that passes a test. -/
structure Cut {γ : Type} (test : γ → Bool) (values : List γ) where
  before : List γ
  value : γ
  behind : List γ
  eq : values = before ++ value :: behind
  passed : test value = true
  skipped : ∀ other ∈ before, test other = false

namespace Cut

variable {γ : Type} {test : γ → Bool} {value : γ} {values : List γ}

/-- The first value passes. -/
def head (hpassed : test value = true) : Cut test (value :: values) where
  before := []
  value := value
  behind := values
  eq := rfl
  passed := hpassed
  skipped := fun _ hmem => absurd hmem List.not_mem_nil

/-- The first value does not pass. -/
def cons (hfailed : test value = false) (cut : Cut test values) : Cut test (value :: values) where
  before := value :: cut.before
  value := cut.value
  behind := cut.behind
  eq := congrArg (value :: ·) cut.eq
  passed := cut.passed
  skipped := by
    intro other hmem
    rcases List.mem_cons.mp hmem with rfl | hrest
    · exact hfailed
    · exact cut.skipped other hrest

theorem mem (cut : Cut test values) : cut.value ∈ values := by
  obtain ⟨before, value, behind, rfl, hpassed, hskipped⟩ := cut
  exact List.mem_append_right before List.mem_cons_self

theorem find?_eq (cut : Cut test values) : values.find? test = some cut.value := by
  obtain ⟨before, value, behind, rfl, hpassed, hskipped⟩ := cut
  rw [List.find?_append, List.find?_eq_none.mpr, Option.none_or, List.find?_cons_of_pos hpassed]
  intro other hmem
  simp [hskipped other hmem]

end Cut

namespace NodeLayout

variable {κ ρ γ σ α : Type} (layout : NodeLayout κ ρ)

/-! ## Loops -/

/-- The record in a cell, and the pointer behind it. -/
def load (address : Nat) : Program κ (ρ × Option Nat) := do
  match layout.read (← Program.load (some address)) with
  | some fields => return fields
  | none => Program.fault

/-- Rewrite a cell. -/
def store (address : Nat) (record : ρ) (next : Option Nat) : Program κ Unit :=
  Program.store (some address) (layout.node record next)

/-- Write the pointer to the next cell. -/
def setNext (address : Nat) (next : Option Nat) : Program κ Unit := do
  let (record, _) ← layout.load address
  layout.store address record next

/-- The first cell whose record passes a test. -/
def search (test : ρ → Bool) : Nat → Option Nat → Program κ (Option Nat)
  | _, none => return none
  | 0, some _ => Program.fault
  | fuel + 1, some address => do
      let (record, next) ← layout.load address
      if test record then return some address
      else search test fuel next

/-- Write the pointer that leads to the current cell: that of the previous cell, or the
head of the list. -/
def redirect (setHead : Option Nat → Program κ Unit) (prev next : Option Nat) :
    Program κ Unit :=
  match prev with
  | none => setHead next
  | some address => layout.setNext address next

/-- Unlink the first cell whose record passes a test; the cell is still allocated. -/
def unlinkFirst (setHead : Option Nat → Program κ Unit) (test : ρ → Bool) :
    Nat → Option Nat → Option Nat → Program κ (Option Nat)
  | _, _, none => return none
  | 0, _, some _ => Program.fault
  | fuel + 1, prev, some address => do
      let (record, next) ← layout.load address
      if test record then do
        layout.redirect setHead prev next
        return some address
      else unlinkFirst setHead test fuel (some address) next

/-- Unlink and release all cells whose records pass a test. -/
def unlinkAll (setHead : Option Nat → Program κ Unit) (test : ρ → Bool)
    (release : Nat → Program κ Unit) : Nat → Option Nat → Option Nat → Program κ Unit
  | _, _, none => return ()
  | 0, _, some _ => Program.fault
  | fuel + 1, prev, some address => do
      let (record, next) ← layout.load address
      if test record then do
        layout.redirect setHead prev next
        release address
        unlinkAll setHead test release fuel prev next
      else unlinkAll setHead test release fuel (some address) next

/-- Release all cells. -/
def releaseAll (release : Nat → Program κ Unit) : Nat → Option Nat → Program κ Unit
  | _, none => return ()
  | 0, some _ => Program.fault
  | fuel + 1, some address => do
      let (_, next) ← layout.load address
      release address
      releaseAll release fuel next

/-- Visit the records one after another, as long as `go` allows it. -/
def walk (go : σ → Bool) (visit : σ → ρ → Program κ σ) :
    Nat → Option Nat → σ → Program κ σ
  | _, none, acc => return acc
  | 0, some _, acc => if go acc then Program.fault else return acc
  | fuel + 1, some address, acc =>
      if go acc then do
        let (record, next) ← layout.load address
        let acc ← visit acc record
        walk go visit fuel next acc
      else return acc

/-- Rewrite all records, counting from an index on. -/
def updateAll (change : Nat → ρ → ρ) : Nat → Option Nat → Nat → Program κ Unit
  | _, none, _ => return ()
  | 0, some _, _ => Program.fault
  | fuel + 1, some address, index => do
      let (record, next) ← layout.load address
      layout.store address (change index record) next
      updateAll change fuel next (index + 1)

/-! ## Segments -/

/-- The cells of a list from one pointer to another. -/
def segment (holds : ρ → γ → Assertion κ) : Option Nat → List γ → Option Nat → Assertion κ
  | start, [], stop => fact (start = stop)
  | start, value :: rest, stop => any fun node : Nat × ρ × Option Nat =>
      fact (start = some node.1) * (points node.1 (layout.node node.2.1 node.2.2) *
        (holds node.2.1 value * segment holds node.2.2 rest stop))

section Segments

variable {layout} {holds : ρ → γ → Assertion κ} {start stop : Option Nat}
  {value : γ} {values rest : List γ} {address : Nat} {record : ρ} {next : Option Nat}
  {other : Assertion κ} {part : Heap κ}

theorem segment_nil (pointer : Option Nat) :
    layout.segment holds pointer [] pointer = 1 :=
  fact_of_true rfl

theorem segment_cons (record : ρ) (next : Option Nat)
    (hpart : (points address (layout.node record next) *
    (holds record value * (layout.segment holds next rest stop * other)) : Assertion κ) part) :
    (layout.segment holds (some address) (value :: rest) stop * other) part := by
  rw [segment, any_mul]
  refine any_intro (address, record, next) ?_
  rw [fact_of_true rfl, one_mul, mul_assoc, mul_assoc]
  exact hpart

/-- Two segments, one behind the other. -/
theorem segment_append {middle : Option Nat} {front : List γ}
    (hpart : (layout.segment holds start front middle *
      (layout.segment holds middle rest stop * other) : Assertion κ) part) :
    (layout.segment holds start (front ++ rest) stop * other) part := by
  induction front generalizing start part other with
  | nil =>
      rw [segment] at hpart
      obtain ⟨rfl, hrest⟩ := fact_mul_apply.mp hpart
      exact hrest
  | cons first front ih =>
      rw [segment, any_mul] at hpart
      obtain ⟨⟨address, record, next⟩, hnode⟩ := hpart
      rw [mul_assoc] at hnode
      obtain ⟨hstart, hcell⟩ := fact_mul_apply.mp hnode
      dsimp only at hstart hcell
      subst hstart
      apply segment_cons record next
      -- the cell and what it owns wait beside the segments
      have happended := ih (rearrange (q := layout.segment holds next front middle *
        (layout.segment holds middle rest stop *
          (points address (layout.node record next) * (holds record first * other))))
        (by ac_rfl) hcell)
      exact rearrange (by ac_rfl) happended

end Segments

/-! ## Rules -/

section Rules

open Triple

variable {layout} {holds : ρ → γ → Assertion κ} {start stop : Option Nat}
  {value : γ} {values rest : List γ} {address : Nat} {record : ρ} {next : Option Nat}
  {other : Assertion κ} {post : α → Assertion κ}

theorem load_bind {then' : ρ × Option Nat → Program κ α}
    (h : Triple (points address (layout.node record next) * other) (then' (record, next)) post) :
    Triple (points address (layout.node record next) * other)
      (layout.load address >>= then') post := by
  rw [NodeLayout.load, bind_assoc]
  refine Triple.load_bind rfl ?_
  rw [layout.read_node]
  exact h

theorem setNext_spec (next' : Option Nat) :
    Triple (points address (layout.node record next)) (layout.setNext address next') fun _ =>
      points address (layout.node record next') := by
  rw [← mul_one (points address (layout.node record next)), setNext]
  refine load_bind ?_
  exact (Triple.store _).last rfl fun _ part hpart => by rwa [mul_one] at hpart

/-- Looking at the first cell of a segment. -/
theorem open_segment {program : Program κ α}
    (h : ∀ address record next, start = some address →
      Triple (points address (layout.node record next) *
        (holds record value * (layout.segment holds next rest stop * other))) program post) :
    Triple (layout.segment holds start (value :: rest) stop * other) program post := by
  refine of_any_mul fun ⟨address, record, next⟩ => ?_
  rw [mul_assoc]
  refine of_fact_mul fun hstart => ?_
  exact Triple.reorder _ (by rw [mul_assoc, mul_assoc]) (h address record next hstart)

/-- What a record represents tells whether it passes a test. -/
theorem know_test {program : Program κ α} {test : ρ → Bool} {test' : γ → Bool}
    (hagree : ∀ record value part, holds record value part → test record = test' value)
    {p : Assertion κ} (h : test record = test' value → Triple (p * (holds record value * other))
      program post) : Triple (p * (holds record value * other)) program post := by
  refine know ?_ h
  rintro _ ⟨_, _, _, _, _, first, _, _, _, hfirst, _⟩
  exact hagree record value first hfirst

variable {test : ρ → Bool} {test' : γ → Bool}

theorem search_bind
    (hagree : ∀ record value part, holds record value part → test record = test' value)
    {fuel : Nat} (hfuel : values.length ≤ fuel) {then' : Option Nat → Program κ α}
    (hnone : (∀ value ∈ values, test' value = false) →
      Triple (layout.segment holds start values none * other) (then' none) post)
    (hsome : ∀ (cut : Cut test' values) address record next,
      Triple (points address (layout.node record next) * (holds record cut.value *
        (layout.segment holds start cut.before (some address) *
          (layout.segment holds next cut.behind none * other)))) (then' (some address)) post) :
    Triple (layout.segment holds start values none * other)
      (layout.search test fuel start >>= then') post := by
  induction values generalizing start other fuel with
  | nil =>
      rw [segment]
      refine of_fact_mul ?_
      rintro rfl
      have hnone := hnone fun _ hmem => absurd hmem List.not_mem_nil
      rw [segment_nil, one_mul] at hnone
      cases fuel <;> exact hnone
  | cons value rest ih =>
      refine open_segment ?_
      rintro address record next rfl
      refine know_test hagree fun htest => ?_
      cases fuel with
      | zero => cases hfuel
      | succ fuel =>
          rw [search, bind_assoc]
          refine load_bind ?_
          dsimp only
          by_cases hpassed : test' value = true
          · rw [if_pos (htest.trans hpassed)]
            refine Triple.reorder _ ?_ (hsome (Cut.head hpassed) address record next)
            rw [Cut.head, segment_nil, one_mul]
          · rw [if_neg (htest ▸ hpassed)]
            have hfailed : test' value = false := Bool.eq_false_of_not_eq_true hpassed
            -- the cell that was passed over waits beside the rest
            refine Triple.reorder (layout.segment holds next rest none *
              (points address (layout.node record next) * (holds record value * other)))
              (by ac_rfl) (ih (Nat.le_of_succ_le_succ hfuel) (fun hrest => ?_) ?_)
            · refine (hnone ?_).consequence (fun part hpart => ?_) fun _ _ => id
              · exact List.forall_mem_cons.mpr ⟨hfailed, hrest⟩
              · exact segment_cons record next (rearrange (by ac_rfl) hpart)
            · intro cut found record' next'
              refine (hsome (cut.cons hfailed) found record' next').consequence
                (fun part hpart => ?_) fun _ _ => id
              have hsegment : (layout.segment holds (some address) (value :: cut.before)
                  (some found) * (points found (layout.node record' next') *
                    (holds record' cut.value *
                      (layout.segment holds next' cut.behind none * other)))) part :=
                segment_cons record next (rearrange (by ac_rfl) hpart)
              exact rearrange (by rw [Cut.cons]; ac_rfl) hsegment

section Unlinking

variable {setHead : Option Nat → Program κ Unit} {link : Option Nat → Assertion κ}

/-- The link that a cell makes when the loop has gone past it. -/
theorem link_cell (link : Assertion κ) (old new : Option Nat) :
    Triple (points address (layout.node record old) * link)
      (layout.redirect setHead (some address) new) fun _ =>
        points address (layout.node record new) * link :=
  (setNext_spec new).frame link

/-- `link pointer` owns the place that holds the pointer to the current cell. -/
theorem unlinkFirst_bind {prev : Option Nat}
    (hlink : ∀ old new, Triple (link old) (layout.redirect setHead prev new) fun _ => link new)
    (hagree : ∀ record value part, holds record value part → test record = test' value)
    {fuel : Nat} (hfuel : values.length ≤ fuel) {then' : Option Nat → Program κ α}
    (hnone : (∀ value ∈ values, test' value = false) →
      Triple (link start * (layout.segment holds start values none * other)) (then' none) post)
    (hsome : ∀ (cut : Cut test' values) address record next start',
      Triple (points address (layout.node record next) * (holds record cut.value *
        (link start' * (layout.segment holds start' (cut.before ++ cut.behind) none * other))))
        (then' (some address)) post) :
    Triple (link start * (layout.segment holds start values none * other))
      (layout.unlinkFirst setHead test fuel prev start >>= then') post := by
  induction values generalizing start link prev other fuel with
  | nil =>
      refine Triple.reorder (layout.segment holds start [] none * (link start * other))
        (by ac_rfl) ?_
      rw [segment]
      refine of_fact_mul ?_
      rintro rfl
      have hnone := hnone fun _ hmem => absurd hmem List.not_mem_nil
      rw [segment_nil, one_mul] at hnone
      cases fuel <;> exact hnone
  | cons value rest ih =>
      refine Triple.reorder (layout.segment holds start (value :: rest) none *
        (link start * other)) (by ac_rfl) (open_segment ?_)
      rintro address record next rfl
      refine know_test hagree fun htest => ?_
      cases fuel with
      | zero => cases hfuel
      | succ fuel =>
          rw [unlinkFirst, bind_assoc]
          refine load_bind ?_
          dsimp only
          by_cases hpassed : test' value = true
          · rw [if_pos (htest.trans hpassed), bind_assoc]
            refine Triple.reorder (link (some address) * (points address
              (layout.node record next) * (holds record value *
                (layout.segment holds next rest none * other)))) (by ac_rfl) ?_
            refine (hlink (some address) next).call rfl fun _ => ?_
            exact Triple.reorder _ (by rw [Cut.head, List.nil_append]; ac_rfl)
              (hsome (Cut.head hpassed) address record next next)
          · rw [if_neg (htest ▸ hpassed)]
            have hfailed : test' value = false := Bool.eq_false_of_not_eq_true hpassed
            -- now the pointer to the current cell stands in the cell just passed
            refine Triple.reorder ((points address (layout.node record next) *
              (holds record value * link (some address))) *
                (layout.segment holds next rest none * other)) (by ac_rfl) ?_
            have hcell : ∀ old new, Triple (points address (layout.node record old) *
                (holds record value * link (some address)))
                (layout.redirect setHead (some address) new) fun _ =>
                  points address (layout.node record new) *
                    (holds record value * link (some address)) :=
              link_cell _
            refine ih hcell (Nat.le_of_succ_le_succ hfuel) (fun hrest => ?_) ?_
            · refine (hnone ?_).consequence (fun part hpart => ?_) fun _ _ => id
              · exact List.forall_mem_cons.mpr ⟨hfailed, hrest⟩
              · have hsegment : (layout.segment holds (some address) (value :: rest) none *
                    (link (some address) * other)) part :=
                  segment_cons record next (rearrange (by ac_rfl) hpart)
                exact rearrange (by ac_rfl) hsegment
            · intro cut found record' next' start'
              refine (hsome (cut.cons hfailed) found record' next' (some address)).consequence
                (fun part hpart => ?_) fun _ _ => id
              have hsegment : (layout.segment holds (some address)
                  (value :: (cut.before ++ cut.behind)) none *
                    (points found (layout.node record' next') * (holds record' cut.value *
                      (link (some address) * other)))) part :=
                segment_cons record start' (rearrange (by ac_rfl) hpart)
              exact rearrange (by rw [Cut.cons, List.cons_append]; ac_rfl) hsegment

/-- Taking out a cell changes a count that is kept with the links. -/
theorem unlinkAll_spec {link : Option Nat → σ → Assertion κ} {drop : σ → σ}
    {release : Nat → Program κ Unit} {prev : Option Nat}
    (hlink : ∀ count old new,
      Triple (link old count) (layout.redirect setHead prev new) fun _ => link new count)
    (hrelease : ∀ count pointer address record next value,
      Triple (points address (layout.node record next) *
        (holds record value * link pointer count)) (release address) fun _ =>
          link pointer (drop count))
    (hagree : ∀ record value part, holds record value part → test record = test' value)
    {fuel : Nat} (hfuel : values.length ≤ fuel) (count : σ) :
    Triple (link start count * layout.segment holds start values none)
      (layout.unlinkAll setHead test release fuel prev start) fun _ =>
        any fun start' => link start' (drop^[values.countP test'] count) *
          layout.segment holds start' (values.filter fun value => !test' value) none := by
  induction values generalizing start link prev fuel count with
  | nil =>
      rw [mul_comm, segment]
      refine of_fact_mul ?_
      rintro rfl
      have hend : ∀ part, link none count part → (any fun start' =>
          link start' (drop^[List.countP test' []] count) *
            layout.segment holds start' ([].filter fun value => !test' value) none) part :=
        fun part hpart => any_intro none (by
          rw [List.filter_nil, segment_nil, mul_one]
          exact hpart)
      cases fuel <;> exact Triple.pure hend
  | cons value rest ih =>
      rw [mul_comm]
      refine open_segment ?_
      rintro address record next rfl
      refine know_test hagree fun htest => ?_
      cases fuel with
      | zero => cases hfuel
      | succ fuel =>
          rw [unlinkAll]
          refine load_bind ?_
          dsimp only
          by_cases hpassed : test' value = true
          · rw [if_pos (htest.trans hpassed)]
            refine Triple.reorder (link (some address) count * (points address
              (layout.node record next) * (holds record value *
                layout.segment holds next rest none))) (by ac_rfl) ?_
            refine (hlink count (some address) next).call rfl fun _ => ?_
            refine Triple.reorder ((points address (layout.node record next) *
              (holds record value * link next count)) * layout.segment holds next rest none)
                (by ac_rfl) ?_
            refine (hrelease count next address record next value).call rfl fun _ => ?_
            rw [List.countP_cons_of_pos hpassed, List.filter_cons_of_neg (by simp [hpassed])]
            exact ih hlink hrelease (Nat.le_of_succ_le_succ hfuel) (drop count)
          · rw [if_neg (htest ▸ hpassed)]
            have hfailed : test' value = false := Bool.eq_false_of_not_eq_true hpassed
            rw [List.countP_cons_of_neg hpassed, List.filter_cons_of_pos (by simp [hfailed])]
            have hcell : ∀ count old new, Triple (points address (layout.node record old) *
                (holds record value * link (some address) count))
                (layout.redirect setHead (some address) new) fun _ =>
                  points address (layout.node record new) *
                    (holds record value * link (some address) count) :=
              fun count => link_cell _
            have hfree : ∀ count pointer freed record' next' value',
                Triple (points freed (layout.node record' next') * (holds record' value' *
                  (points address (layout.node record pointer) *
                    (holds record value * link (some address) count)))) (release freed) fun _ =>
                  points address (layout.node record pointer) *
                    (holds record value * link (some address) (drop count)) := by
              intro count pointer freed record' next' value'
              refine (hrelease count (some address) freed record' next' value').last
                (show _ = _ * (points address (layout.node record pointer) *
                  holds record value) by ac_rfl) fun _ part hpart => rearrange (by ac_rfl) hpart
            refine Triple.reorder ((points address (layout.node record next) *
              (holds record value * link (some address) count)) *
                layout.segment holds next rest none) (by ac_rfl) ?_
            refine (ih hcell hfree (Nat.le_of_succ_le_succ hfuel) count).weaken
              fun _ part hpart => ?_
            obtain ⟨start', hpart⟩ := hpart
            refine any_intro (some address) ?_
            have hsegment : (layout.segment holds (some address)
                (value :: rest.filter fun value => !test' value) none *
                  link (some address) (drop^[rest.countP test'] count)) part :=
              segment_cons record start' (rearrange (by ac_rfl) hpart)
            exact rearrange (mul_comm _ _) hsegment

end Unlinking

/-- Every cell is released once. -/
theorem releaseAll_spec {release : Nat → Program κ Unit}
    (hrelease : ∀ address record next value,
      Triple (points address (layout.node record next) * holds record value) (release address)
        fun _ => 1) {fuel : Nat} (hfuel : values.length ≤ fuel) :
    Triple (layout.segment holds start values none) (layout.releaseAll release fuel start)
      fun _ => 1 := by
  induction values generalizing start fuel with
  | nil =>
      rw [← mul_one (layout.segment holds start [] none), segment]
      refine of_fact_mul ?_
      rintro rfl
      cases fuel <;> exact Triple.pure fun _ => id
  | cons value rest ih =>
      rw [← mul_one (layout.segment holds start (value :: rest) none)]
      refine open_segment ?_
      rintro address record next rfl
      cases fuel with
      | zero => cases hfuel
      | succ fuel =>
          rw [releaseAll]
          refine load_bind ?_
          refine (hrelease address record next value).call
            (by rw [mul_one, mul_assoc]) fun _ => ?_
          rw [one_mul]
          exact ih (Nat.le_of_succ_le_succ hfuel)

/-- What a walk over a list computes. -/
def walked (go : σ → Bool) (step : σ → γ → σ) : List γ → σ → σ
  | [], acc => acc
  | value :: rest, acc => if go acc then walked go step rest (step acc value) else acc

/-- A walk that visits without changing anything. -/
theorem walk_spec {go : σ → Bool} {visit : σ → ρ → Program κ σ} {step : σ → γ → σ}
    (hvisit : ∀ acc record value, Triple (holds record value) (visit acc record) fun acc' =>
      fact (acc' = step acc value) * holds record value)
    {fuel : Nat} (hfuel : values.length ≤ fuel) (acc : σ) :
    Triple (layout.segment holds start values none) (layout.walk go visit fuel start acc)
      fun acc' => fact (acc' = walked go step values acc) *
        layout.segment holds start values none := by
  induction values generalizing start fuel acc with
  | nil =>
      rw [segment, ← mul_one (fact (start = none))]
      refine of_fact_mul ?_
      rintro rfl
      have hend : ∀ part, (1 : Assertion κ) part →
          (fact (acc = walked go step [] acc) *
            (fact ((none : Option Nat) = none) * 1) : Assertion κ) part :=
        fun part hpart => fact_mul_apply.mpr ⟨rfl, fact_mul_apply.mpr ⟨rfl, hpart⟩⟩
      cases fuel <;> exact Triple.pure hend
  | cons value rest ih =>
      rw [← mul_one (layout.segment holds start (value :: rest) none)]
      refine open_segment ?_
      rintro address record next rfl
      rw [mul_one]
      have hback : ∀ part, (points address (layout.node record next) *
          (holds record value * layout.segment holds next rest none) : Assertion κ) part →
          (layout.segment holds (some address) (value :: rest) none * 1 : Assertion κ) part :=
        fun part hpart => segment_cons record next (by rwa [mul_one])
      cases fuel with
      | zero => cases hfuel
      | succ fuel =>
          rw [walk, walked]
          by_cases hgo : go acc = true
          · rw [if_pos hgo, if_pos hgo]
            refine load_bind ?_
            refine Triple.reorder (holds record value * (points address
              (layout.node record next) * layout.segment holds next rest none)) (by ac_rfl) ?_
            refine (hvisit acc record value).call rfl fun acc' => ?_
            rw [mul_assoc]
            refine of_fact_mul ?_
            rintro rfl
            refine (ih (Nat.le_of_succ_le_succ hfuel) (step acc value)).last
              (show _ = _ * (points address (layout.node record next) * holds record value)
                by ac_rfl) fun result part hpart => ?_
            rw [mul_assoc] at hpart
            obtain ⟨hresult, hpart⟩ := fact_mul_apply.mp hpart
            exact fact_mul_apply.mpr ⟨hresult, hback part (rearrange (by ac_rfl) hpart)⟩
          · rw [if_neg hgo, if_neg hgo]
            exact Triple.pure fun part hpart => fact_mul_apply.mpr ⟨rfl, hback part hpart⟩

/-- Rewriting all records changes all values. -/
theorem updateAll_spec {change : Nat → ρ → ρ} {change' : Nat → γ → γ}
    (hchange : ∀ index record value part, holds record value part →
      holds (change index record) (change' index value) part)
    {fuel : Nat} (hfuel : values.length ≤ fuel) (index : Nat) :
    Triple (layout.segment holds start values none) (layout.updateAll change fuel start index)
      fun _ => layout.segment holds start
        (values.mapIdx fun i value => change' (index + i) value) none := by
  induction values generalizing start fuel index with
  | nil =>
      rw [List.mapIdx_nil, segment, ← mul_one (fact (start = none))]
      refine of_fact_mul ?_
      rintro rfl
      rw [fact_of_true rfl, one_mul]
      cases fuel <;> exact Triple.pure fun _ => id
  | cons value rest ih =>
      rw [← mul_one (layout.segment holds start (value :: rest) none)]
      refine open_segment ?_
      rintro address record next rfl
      cases fuel with
      | zero => cases hfuel
      | succ fuel =>
          rw [updateAll]
          refine load_bind ?_
          refine Triple.store_bind rfl ?_
          refine (ih (Nat.le_of_succ_le_succ hfuel) (index + 1)).last
            (show _ = _ * (points address (layout.node (change index record) next) *
              holds record value) by rw [mul_one]; ac_rfl) fun _ part hpart => ?_
          have hnew := mul_mono_left (hchange index record value)
            (points address (layout.node (change index record) next) *
              layout.segment holds next
                (rest.mapIdx fun i value => change' (index + 1 + i) value) none) part
            (rearrange (by ac_rfl) hpart)
          have hshift : (fun i value => change' (index + (i + 1)) value) =
              fun i value => change' (index + 1 + i) value := by
            funext i value
            rw [Nat.add_right_comm, Nat.add_assoc]
          rw [List.mapIdx_cons, hshift, Nat.add_zero,
            ← mul_one (layout.segment holds _ _ none)]
          refine segment_cons (change index record) next ?_
          rw [mul_one]
          exact rearrange (by ac_rfl) hnew

end Rules

end NodeLayout

end Separation
