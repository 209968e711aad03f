import QuantTrading.Foundation.Transition
import Mathlib.Data.List.Nodup

/-! # Registries of names

A registry keeps a list of names. A name that it does not have is added at the end, cut to
what an entry can store, while a look-up compares the stored names with the name as it is
given. Such a registry keeps what it promises as long as it only adds names that are not cut.
-/

/-- A component with a list of names. It refuses names while it does not admit any. -/
structure NameRegistry (State Name : Type*) [DecidableEq Name] where
  names : State → List Name
  lookup : State → Name → Option Nat
  register : State → Name → Int × State
  Admits : State → Prop
  cut : Name → Name
  cut_cut : ∀ name, cut (cut name) = cut name
  lookup_eq : ∀ state name, lookup state name = (names state).findIdx? (· = name)
  names_of_mem : ∀ {state name}, name ∈ names state →
    names (register state name).2 = names state
  refused : ∀ {state name}, name ∉ names state → ¬ Admits state →
    (register state name).1 ≠ 0 ∧ names (register state name).2 = names state
  admitted : ∀ {state name}, name ∉ names state → Admits state →
    (register state name).1 = 0 ∧ names (register state name).2 = names state ++ [cut name]

namespace NameRegistry

theorem findIdx?_eq_none_iff_notMem {Name : Type*} [DecidableEq Name] {names : List Name}
    {name : Name} : names.findIdx? (· = name) = none ↔ name ∉ names := by
  rw [List.findIdx?_eq_none_iff]
  constructor
  · exact fun hall hmem => of_decide_eq_false (hall name hmem) rfl
  · exact fun hnot other hother => decide_eq_false (ne_of_mem_of_not_mem hother hnot)

variable {State Name : Type*} [DecidableEq Name] (registry : NameRegistry State Name)

/-- A registry with the names whose registration succeeded. -/
structure Log (State Name : Type*) where
  state : State
  registered : List Name

/-- Register a name and note whether that succeeded. -/
def perform (log : Log State Name) (name : Name) : Log State Name where
  state := (registry.register log.state name).2
  registered :=
    if (registry.register log.state name).1 = 0 then name :: log.registered else log.registered

/-- The stored names are distinct. A registered name is found at an entry that stores it and
that no other name leads to, and registering it again adds no entry. -/
structure Sound (log : Log State Name) : Prop where
  distinct : (registry.names log.state).Nodup
  found : ∀ name ∈ log.registered, ∃ index, registry.lookup log.state name = some index ∧
    (registry.names log.state)[index]? = some name ∧
    ∀ other, other ≠ name → registry.lookup log.state other ≠ some index
  again : ∀ name ∈ log.registered,
    registry.names (registry.register log.state name).2 = registry.names log.state

/-- A name that the registry may add is one that it stores as it is. -/
def Fits (log : Log State Name) (name : Name) : Prop :=
  registry.Admits log.state → registry.cut name = name

variable {registry}

/-- A stored name is found at its entry, and only that name is. -/
theorem lookup_of_mem {state : State} {name : Name} (hmem : name ∈ registry.names state) :
    ∃ index, registry.lookup state name = some index ∧
      (registry.names state)[index]? = some name ∧
      ∀ other, other ≠ name → registry.lookup state other ≠ some index := by
  have hvalue : ∀ {other : Name} {index : Nat}, registry.lookup state other = some index →
      (registry.names state)[index]? = some other := by
    intro other index hlookup
    rw [registry.lookup_eq] at hlookup
    obtain ⟨hlt, hname, _⟩ := List.findIdx?_eq_some_iff_getElem.mp hlookup
    rw [List.getElem?_eq_getElem hlt]
    exact congrArg some (of_decide_eq_true hname)
  obtain ⟨index, hindex⟩ : ∃ index, registry.lookup state name = some index := by
    apply Option.isSome_iff_exists.mp
    rw [registry.lookup_eq, List.findIdx?_isSome, List.any_eq_true]
    exact ⟨name, hmem, decide_eq_true rfl⟩
  refine ⟨index, hindex, hvalue hindex, fun other hother hlookup => hother ?_⟩
  exact Option.some.inj ((hvalue hlookup).symm.trans (hvalue hindex))

/-- What holds as long as no added name is cut. -/
structure Uncut (registry : NameRegistry State Name) (log : Log State Name) : Prop where
  distinct : (registry.names log.state).Nodup
  cut_eq : ∀ name ∈ registry.names log.state, registry.cut name = name
  stored : ∀ name ∈ log.registered, name ∈ registry.names log.state

theorem Uncut.sound {log : Log State Name} (huncut : registry.Uncut log) : registry.Sound log where
  distinct := huncut.distinct
  found name hname := lookup_of_mem (huncut.stored name hname)
  again name hname := registry.names_of_mem (huncut.stored name hname)

theorem Uncut.perform {log : Log State Name} (huncut : registry.Uncut log) {name : Name}
    (hfits : registry.Fits log name) : registry.Uncut (registry.perform log name) := by
  -- whether the name is noted or not, it is stored when it was registered
  have hnoted : ∀ {stored : List Name}, (∀ other ∈ log.registered, other ∈ stored) →
      ((registry.register log.state name).1 = 0 → name ∈ stored) →
      ∀ other ∈ (registry.perform log name).registered, other ∈ stored := by
    intro stored hold hnew other hother
    unfold NameRegistry.perform at hother
    dsimp only at hother
    split_ifs at hother with hcode
    · rcases List.mem_cons.mp hother with rfl | hbefore
      · exact hnew hcode
      · exact hold other hbefore
    · exact hold other hother
  by_cases hmem : name ∈ registry.names log.state
  · have hnames : registry.names (registry.perform log name).state = registry.names log.state :=
      registry.names_of_mem hmem
    refine ⟨hnames ▸ huncut.distinct, hnames ▸ huncut.cut_eq, ?_⟩
    rw [hnames]
    exact hnoted huncut.stored fun _ => hmem
  · by_cases hadmits : registry.Admits log.state
    · obtain ⟨_, hnames⟩ := registry.admitted hmem hadmits
      rw [hfits hadmits] at hnames
      change registry.names (registry.perform log name).state = _ at hnames
      constructor
      · rw [hnames]
        exact List.concat_eq_append ▸ huncut.distinct.concat hmem
      · rw [hnames]
        intro other hother
        rcases List.mem_append.mp hother with hold | hnew
        · exact huncut.cut_eq other hold
        · exact List.mem_singleton.mp hnew ▸ hfits hadmits
      · rw [hnames]
        refine hnoted (fun other hother => List.mem_append_left _ (huncut.stored other hother)) ?_
        exact fun _ => List.mem_append_right _ (List.mem_singleton_self name)
    · obtain ⟨hcode, hnames⟩ := registry.refused hmem hadmits
      change registry.names (registry.perform log name).state = _ at hnames
      refine ⟨hnames ▸ huncut.distinct, hnames ▸ huncut.cut_eq, ?_⟩
      rw [hnames]
      exact hnoted huncut.stored fun hzero => absurd hzero hcode

/-- A name that is cut when it is added is not found. -/
theorem Uncut.not_sound {log : Log State Name} (huncut : registry.Uncut log) {name : Name}
    (hnot : ¬ registry.Fits log name) : ¬ registry.Sound (registry.perform log name) := by
  rw [Fits, Classical.not_imp] at hnot
  obtain ⟨hadmits, hcut⟩ := hnot
  intro hsound
  have hmem : name ∉ registry.names log.state := fun hmem => hcut (huncut.cut_eq name hmem)
  obtain ⟨hcode, hnames⟩ := registry.admitted hmem hadmits
  have hnoted : name ∈ (registry.perform log name).registered := by
    unfold NameRegistry.perform
    rw [if_pos hcode]
    exact List.mem_cons_self
  obtain ⟨index, _, hentry, _⟩ := hsound.found name hnoted
  change (registry.names (registry.register log.state name).2)[index]? = some name at hentry
  have hstored := List.mem_of_getElem? hentry
  rw [hnames, List.mem_append, List.mem_singleton] at hstored
  rcases hstored with hold | hnew
  · exact hmem hold
  · exact hcut hnew.symm

/-- A registry that starts without names is sound in every state of a run if and only if
every name that it may add fits an entry. -/
theorem sound_iff_fits {start : State} (hempty : registry.names start = []) (names : List Name) :
    (∀ count, registry.Sound
        (Transition.run registry.perform ⟨start, []⟩ (names.take count))) ↔
      Transition.Along registry.perform registry.Fits ⟨start, []⟩ names := by
  refine Transition.forall_states_iff_along registry.perform registry.Uncut registry.Sound
    (fun _ huncut => huncut.sound) (fun _ _ huncut hfits => huncut.perform hfits)
    (fun _ _ huncut hnot => huncut.not_sound hnot) ⟨?_, ?_, ?_⟩ names
  · rw [hempty]
    exact List.nodup_nil
  · rw [hempty]
    exact fun _ hnone => absurd hnone List.not_mem_nil
  · exact fun _ hnone => absurd hnone List.not_mem_nil

end NameRegistry
