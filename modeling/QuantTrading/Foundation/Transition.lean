import Mathlib.Data.List.Basic
import Mathlib.Logic.Relation

/-! # Runs of a deterministic step function

A component is a step function on explicit states. A run performs a list of
actions in order; the rules below lift what one step preserves to whole runs,
with or without a condition that every action must meet in the state in which
it is performed.
-/

namespace Transition

variable {State Action : Type*} (step : State → Action → State)

/-- The state reached by performing `actions` in order. -/
def run (state : State) (actions : List Action) : State :=
  actions.foldl step state

@[simp] theorem run_nil (state : State) : run step state [] = state := rfl

@[simp] theorem run_cons (state : State) (action : Action) (actions : List Action) :
    run step state (action :: actions) = run step (step state action) actions := rfl

theorem run_append (state : State) (first second : List Action) :
    run step state (first ++ second) = run step (run step state first) second :=
  List.foldl_append

/-- Every action of the run is allowed in the state in which it is performed. -/
def Along (allowed : State → Action → Prop) : State → List Action → Prop
  | _, [] => True
  | state, action :: rest => allowed state action ∧ Along allowed (step state action) rest

instance Along.decidable (allowed : State → Action → Prop)
    [∀ state action, Decidable (allowed state action)] :
    ∀ (state : State) (actions : List Action), Decidable (Along step allowed state actions)
  | _, [] => .isTrue trivial
  | state, action :: rest =>
      have := Along.decidable allowed (step state action) rest
      inferInstanceAs (Decidable (_ ∧ _))

/-- What the actions of a run preserve holds after the run. -/
theorem run_invariant_of_mem (invariant : State → Prop) {actions : List Action}
    (hstep : ∀ state, ∀ action ∈ actions, invariant state → invariant (step state action))
    {state : State} (hstate : invariant state) : invariant (run step state actions) := by
  induction actions generalizing state with
  | nil => exact hstate
  | cons action rest ih =>
      refine ih (fun state action haction => hstep state action ?_) ?_
      · exact List.mem_cons_of_mem _ haction
      · exact hstep state action List.mem_cons_self hstate

/-- A predicate that every step preserves holds after every run. -/
theorem run_invariant (invariant : State → Prop)
    (hstep : ∀ state action, invariant state → invariant (step state action))
    {state : State} (hstate : invariant state) (actions : List Action) :
    invariant (run step state actions) :=
  run_invariant_of_mem step invariant (fun state action _ => hstep state action) hstate

/-- What every allowed action preserves holds after a run of allowed actions. -/
theorem run_invariant_of_along {allowed : State → Action → Prop} (invariant : State → Prop)
    (hstep : ∀ state action, invariant state → allowed state action →
      invariant (step state action))
    {state : State} (hstate : invariant state) {actions : List Action}
    (halong : Along step allowed state actions) :
    invariant (run step state actions) := by
  induction actions generalizing state with
  | nil => exact hstate
  | cons action rest ih => exact ih (hstep state action hstate halong.1) halong.2

theorem Along.take {allowed : State → Action → Prop} {state : State} {actions : List Action}
    (halong : Along step allowed state actions) (count : Nat) :
    Along step allowed state (actions.take count) := by
  induction actions generalizing state count with
  | nil => simpa using halong
  | cons action rest ih =>
      cases count with
      | zero => trivial
      | succ count => exact ⟨halong.1, ih halong.2 count⟩

theorem along_append {allowed : State → Action → Prop} {state : State}
    {first second : List Action} :
    Along step allowed state (first ++ second) ↔
      Along step allowed state first ∧ Along step allowed (run step state first) second := by
  induction first generalizing state with
  | nil => simp [Along]
  | cons action rest ih => simp only [List.cons_append, Along, run_cons, ih, and_assoc]

/-- Two conditions that agree wherever an invariant holds are met by the same runs,
when actions that meet the second keep the invariant. -/
theorem along_congr {first second : State → Action → Prop} (invariant : State → Prop)
    (hiff : ∀ state action, invariant state → (first state action ↔ second state action))
    (hkeep : ∀ state action, invariant state → second state action →
      invariant (step state action))
    {state : State} (hstate : invariant state) (actions : List Action) :
    Along step first state actions ↔ Along step second state actions := by
  induction actions generalizing state with
  | nil => exact Iff.rfl
  | cons action rest ih =>
      constructor
      · rintro ⟨hfirst, hrest⟩
        have hsecond := (hiff state action hstate).mp hfirst
        exact ⟨hsecond, (ih (hkeep state action hstate hsecond)).mp hrest⟩
      · rintro ⟨hsecond, hrest⟩
        exact ⟨(hiff state action hstate).mpr hsecond,
          (ih (hkeep state action hstate hsecond)).mpr hrest⟩

/-- What an allowed action meets wherever an invariant holds, every action of an allowed
run meets. -/
theorem Along.imp {first second : State → Action → Prop} (invariant : State → Prop)
    (himp : ∀ state action, invariant state → first state action → second state action)
    (hkeep : ∀ state action, invariant state → first state action →
      invariant (step state action))
    {state : State} (hstate : invariant state) {actions : List Action}
    (halong : Along step first state actions) : Along step second state actions := by
  induction actions generalizing state with
  | nil => trivial
  | cons action rest ih =>
      exact ⟨himp state action hstate halong.1, ih (hkeep state action hstate halong.1) halong.2⟩

/-- A property that a step keeps exactly when the action is allowed holds after a run
exactly when every action of the run was allowed. -/
theorem run_iff_along {allowed : State → Action → Prop} (invariant property : State → Prop)
    (hkeep : ∀ state action, invariant state → invariant (step state action))
    (hstep : ∀ state action, invariant state →
      (property (step state action) ↔ property state ∧ allowed state action))
    {state : State} (hstate : invariant state) (actions : List Action) :
    property (run step state actions) ↔ property state ∧ Along step allowed state actions := by
  induction actions generalizing state with
  | nil => simp [Along]
  | cons action rest ih =>
      rw [run_cons, ih (hkeep state action hstate), hstep state action hstate, Along, and_assoc]

/-- When allowed actions keep an invariant that gives a property, and an action that
is not allowed destroys the property, then the property holds in every state of
a run exactly when every action of the run is allowed. -/
theorem forall_states_iff_along {allowed : State → Action → Prop}
    (invariant property : State → Prop)
    (hproperty : ∀ state, invariant state → property state)
    (hkeep : ∀ state action, invariant state → allowed state action →
      invariant (step state action))
    (hbreak : ∀ state action, invariant state → ¬ allowed state action →
      ¬ property (step state action))
    {state : State} (hstate : invariant state) (actions : List Action) :
    (∀ count, property (run step state (actions.take count))) ↔
      Along step allowed state actions := by
  constructor
  · intro hstates
    induction actions generalizing state with
    | nil => trivial
    | cons action rest ih =>
        have hallowed : allowed state action := by
          by_contra hnot
          exact hbreak state action hstate hnot (by simpa using hstates 1)
        refine ⟨hallowed, ih (hkeep state action hstate hallowed) fun count => ?_⟩
        simpa using hstates (count + 1)
  · intro halong count
    exact hproperty _ (run_invariant_of_along step invariant hkeep hstate (halong.take step count))

/-! ## Loops

A loop repeats a partial step until it is not enabled. It is written with fuel;
a measure that every iteration decreases bounds the fuel it needs.
-/

variable (next : State → Option State)

/-- Repeat `next` until it returns `none`, at most `fuel` times. -/
def loop : Nat → State → State
  | 0, state => state
  | fuel + 1, state =>
      match next state with
      | none => state
      | some state' => loop fuel state'

/-- The states from which the loop takes an iteration, in order. -/
def loopStates : Nat → State → List State
  | 0, _ => []
  | fuel + 1, state =>
      match next state with
      | none => []
      | some state' => state :: loopStates fuel state'

variable {next}

theorem loop_of_none {state : State} (hnone : next state = none) (fuel : Nat) :
    loop next fuel state = state := by
  cases fuel with
  | zero => rfl
  | succ fuel => simp [loop, hnone]

theorem loop_of_some {state state' : State} (hsome : next state = some state') (fuel : Nat) :
    loop next (fuel + 1) state = loop next fuel state' := by
  simp [loop, hsome]

/-- A loop that has ended stays as it is with more fuel. -/
theorem loop_eq_of_stuck {fuel more : Nat} {state : State}
    (hstuck : next (loop next fuel state) = none) (hle : fuel ≤ more) :
    loop next more state = loop next fuel state := by
  induction fuel generalizing more state with
  | zero => exact loop_of_none hstuck more
  | succ fuel ih =>
      obtain ⟨more, rfl⟩ : ∃ rest, more = rest + 1 := ⟨more - 1, by omega⟩
      cases hstep : next state with
      | none => rw [loop_of_none hstep, loop_of_none hstep]
      | some state' =>
          rw [loop_of_some hstep] at hstuck ⊢
          rw [loop_of_some hstep]
          exact ih hstuck (Nat.le_of_succ_le_succ hle)

theorem loopStates_of_some {state state' : State} (hsome : next state = some state')
    (fuel : Nat) : loopStates next (fuel + 1) state = state :: loopStates next fuel state' := by
  simp [loopStates, hsome]

/-- What every iteration preserves holds when the loop ends. -/
theorem loop_invariant (invariant : State → Prop)
    (hnext : ∀ state state', invariant state → next state = some state' → invariant state')
    (fuel : Nat) {state : State} (hstate : invariant state) :
    invariant (loop next fuel state) := by
  induction fuel generalizing state with
  | zero => exact hstate
  | succ fuel ih =>
      cases hstep : next state with
      | none => rwa [loop_of_none hstep]
      | some state' =>
          rw [loop_of_some hstep]
          exact ih (hnext state state' hstate hstep)

/-- What every iteration preserves holds wherever an iteration starts, and the
iteration is enabled there. -/
theorem loopStates_invariant (invariant : State → Prop)
    (hnext : ∀ state state', invariant state → next state = some state' → invariant state')
    (fuel : Nat) {state visited : State} (hstate : invariant state)
    (hvisited : visited ∈ loopStates next fuel state) :
    invariant visited ∧ ∃ state', next visited = some state' := by
  induction fuel generalizing state with
  | zero => simp [loopStates] at hvisited
  | succ fuel ih =>
      cases hstep : next state with
      | none => simp [loopStates, hstep] at hvisited
      | some state' =>
          rw [loopStates_of_some hstep] at hvisited
          rcases List.mem_cons.mp hvisited with rfl | hlater
          · exact ⟨hstate, state', hstep⟩
          · exact ih (hnext state state' hstate hstep) hlater

/-- When every iteration appends one event to an output, the loop appends one event
for each state in which it takes an iteration. -/
theorem loop_output {Event : Type*} (invariant : State → Prop) {output : State → List Event}
    {emits : State → Event → Prop}
    (hnext : ∀ state state', invariant state → next state = some state' → invariant state' ∧
      ∃ event, output state' = output state ++ [event] ∧ emits state event)
    (fuel : Nat) {state : State} (hstate : invariant state) :
    ∃ events, output (loop next fuel state) = output state ++ events ∧
      List.Forall₂ emits (loopStates next fuel state) events := by
  induction fuel generalizing state with
  | zero => exact ⟨[], (List.append_nil _).symm, .nil⟩
  | succ fuel ih =>
      cases hstep : next state with
      | none =>
          refine ⟨[], ?_, ?_⟩
          · rw [loop_of_none hstep, List.append_nil]
          · rw [loopStates, hstep]
            exact .nil
      | some state' =>
          obtain ⟨hstate', event, hevent, hemits⟩ := hnext state state' hstate hstep
          obtain ⟨events, hevents, hrest⟩ := ih hstate'
          refine ⟨event :: events, ?_, ?_⟩
          · rw [loop_of_some hstep, hevents, hevent, List.append_assoc, List.singleton_append]
          · rw [loopStates_of_some hstep]
            exact .cons hemits hrest

/-- A loop whose iterations decrease a measure ends because it is no longer
enabled, once the fuel covers the measure. -/
theorem loop_stuck (invariant : State → Prop) (measure : State → Nat)
    (hnext : ∀ state state', invariant state → next state = some state' → invariant state')
    (hdecrease : ∀ state state', invariant state → next state = some state' →
      measure state' < measure state)
    {fuel : Nat} {state : State} (hstate : invariant state) (hfuel : measure state ≤ fuel) :
    next (loop next fuel state) = none := by
  induction fuel generalizing state with
  | zero =>
      cases hstep : next state with
      | none => exact hstep
      | some state' =>
          have := hdecrease state state' hstate hstep
          omega
  | succ fuel ih =>
      cases hstep : next state with
      | none => rwa [loop_of_none hstep]
      | some state' =>
          have := hdecrease state state' hstate hstep
          rw [loop_of_some hstep]
          exact ih (hnext state state' hstate hstep) (by omega)

/-- An abstraction function that commutes with every iteration commutes with
the loop. -/
theorem loop_abstract {Abstract : Type*} {nextAbstract : Abstract → Option Abstract}
    (invariant : State → Prop) (abstraction : State → Abstract)
    (hnext : ∀ state state', invariant state → next state = some state' → invariant state')
    (hcommute : ∀ state, invariant state →
      nextAbstract (abstraction state) = (next state).map abstraction)
    (fuel : Nat) {state : State} (hstate : invariant state) :
    abstraction (loop next fuel state) = loop nextAbstract fuel (abstraction state) := by
  induction fuel generalizing state with
  | zero => rfl
  | succ fuel ih =>
      have hmap := hcommute state hstate
      cases hstep : next state with
      | none =>
          rw [hstep] at hmap
          rw [loop_of_none hstep, loop_of_none hmap]
      | some state' =>
          rw [hstep] at hmap
          rw [loop_of_some hstep, loop_of_some hmap, ih (hnext state state' hstate hstep)]

/-! ### Loops that follow one another -/

variable (next) in
/-- The second state is reached from the first by iterations of the loop. -/
def Reaches : State → State → Prop :=
  Relation.ReflTransGen fun state state' => next state = some state'

theorem loop_reaches (fuel : Nat) (state : State) :
    Reaches next state (loop next fuel state) := by
  induction fuel generalizing state with
  | zero => exact .refl
  | succ fuel ih =>
      cases hstep : next state with
      | none =>
          rw [loop_of_none hstep]
          exact .refl
      | some state' =>
          rw [loop_of_some hstep]
          exact .head hstep (ih state')

/-- When a second loop can follow every iteration of a first, or wait, then it can
follow the whole first loop. -/
theorem loop_simulates {Other : Type*} {nextOther : Other → Option Other}
    (relates : State → Other → Prop)
    (hnext : ∀ state state' other, relates state other → next state = some state' →
      relates state' other ∨ ∃ other', nextOther other = some other' ∧ relates state' other')
    (fuel : Nat) {state : State} {other : Other} (hstate : relates state other) :
    ∃ other', Reaches nextOther other other' ∧ relates (loop next fuel state) other' := by
  induction fuel generalizing state other with
  | zero => exact ⟨other, .refl, hstate⟩
  | succ fuel ih =>
      cases hstep : next state with
      | none =>
          rw [loop_of_none hstep]
          exact ⟨other, .refl, hstate⟩
      | some state' =>
          rw [loop_of_some hstep]
          rcases hnext state state' other hstate hstep with hwait | ⟨other', hother, hfollow⟩
          · exact ih hwait
          · obtain ⟨last, hreaches, hlast⟩ := ih hfollow
            exact ⟨last, .head hother hreaches, hlast⟩

/-- When every iteration appends an event, a state on the way of a loop that ends
has the output of the end exactly when it is the end. -/
theorem Reaches.output_eq_iff {Event : Type*} {output : State → List Event}
    (houtput : ∀ state state', next state = some state' →
      ∃ event, output state' = output state ++ [event])
    {fuel : Nat} {state state' : State} (hreaches : Reaches next state state')
    (hstuck : next (loop next fuel state) = none) :
    output state' = output (loop next fuel state) ↔ next state' = none := by
  have hgrows : ∀ {first last : State}, Reaches next first last →
      (output first).length ≤ (output last).length := by
    intro first last hfirst
    induction hfirst with
    | refl => exact Nat.le_refl _
    | tail _ hstep ih =>
        obtain ⟨event, hevent⟩ := houtput _ _ hstep
        rw [hevent, List.length_append]
        omega
  have hunique : Relator.RightUnique fun first last : State => next first = some last :=
    fun first last last' hlast hlast' => Option.some.inj (hlast.symm.trans hlast')
  have hend : Reaches next state' (loop next fuel state) := by
    rcases Relation.ReflTransGen.total_of_right_unique hunique hreaches
      (loop_reaches fuel state) with hlater | hearlier
    · exact hlater
    · rcases Relation.ReflTransGen.cases_head hearlier with heq | ⟨_, hstep, _⟩
      · rw [heq]
        exact .refl
      · rw [hstuck] at hstep
        exact absurd hstep (by simp)
  rcases Relation.ReflTransGen.cases_head hend with heq | ⟨later, hstep, hlater⟩
  · rw [← heq] at hstuck ⊢
    exact iff_of_true rfl hstuck
  · refine iff_of_false (fun heq => ?_) (by simp [hstep])
    obtain ⟨event, hevent⟩ := houtput _ _ hstep
    have hlength := hgrows hlater
    rw [hevent, ← heq, List.length_append, List.length_singleton] at hlength
    omega

/-! ## Repeated calls

A call returns a result besides the next state, or nothing when it goes wrong.
-/

section Repeated

variable {Result : Type*} (call : State → Option (Result × State))

/-- The result and the state of the last of `count` repetitions of a call. -/
def repeated : Nat → State → Option (Result × State)
  | 0, state => call state
  | count + 1, state => (call state).bind fun outcome => repeated count outcome.2

/-- The call leaves a state alone that is settled already, and when it succeeds, every
repetition has the same outcome. -/
structure Idempotent (success : Result) (settled : Prop) (state : State) : Prop where
  unchanged : settled → call state = some (success, state)
  repeats : ∀ after, call state = some (success, after) →
    ∀ count, repeated call count state = some (success, after)

variable {call}

/-- A successful call can be repeated exactly when it can be repeated once. -/
theorem repeated_iff {success : Result} {state after : State}
    (hfirst : call state = some (success, after)) :
    (∀ count, repeated call count state = some (success, after)) ↔
      call after = some (success, after) := by
  constructor
  · intro hall
    have honce := hall 1
    rwa [repeated, hfirst, Option.bind_some] at honce
  · intro hagain count
    induction count generalizing state with
    | zero => exact hfirst
    | succ count ih =>
        rw [repeated, hfirst, Option.bind_some]
        exact ih hagain

/-- A call that succeeds and changes nothing is idempotent. -/
theorem idempotent_of_unchanged {success : Result} {settled : Prop} {state : State}
    (hsame : call state = some (success, state)) : Idempotent call success settled state := by
  refine ⟨fun _ => hsame, ?_⟩
  intro after hafter
  rw [repeated_iff hafter]
  rw [hsame] at hafter
  cases hafter
  exact hsame

/-- A call that settles something is idempotent when it can be made once more. -/
theorem idempotent_iff_again {success : Result} {settled : Prop} {state after : State}
    (hopen : ¬ settled) (hcall : call state = some (success, after)) :
    Idempotent call success settled state ↔ call after = some (success, after) := by
  rw [← repeated_iff hcall]
  constructor
  · exact fun hidempotent => hidempotent.repeats after hcall
  · intro hall
    refine ⟨fun hsettled => absurd hsettled hopen, ?_⟩
    intro after' hafter
    rw [hcall] at hafter
    cases hafter
    exact hall

/-- A call that fails is idempotent when nothing is settled. -/
theorem idempotent_iff_of_failed {success : Result} {settled : Prop} {state : State}
    (hfailed : ∀ after, call state ≠ some (success, after)) :
    Idempotent call success settled state ↔ ¬ settled := by
  constructor
  · exact fun hidempotent hsettled => hfailed state (hidempotent.unchanged hsettled)
  · exact fun hopen => ⟨fun hsettled => absurd hsettled hopen,
      fun after hafter => absurd hafter (hfailed after)⟩

end Repeated

end Transition
