import Mathlib.Data.List.Basic
import Mathlib.Data.List.MinMax
import Mathlib.Data.List.Perm.Basic

/-! # The top of a list

Some members of a list are its top when none that is left out ranks above one of
them. Of a list that is sorted by a value, the first members are the top for the
ascending rank; for the opposite rank they are the top only in lists that are short
enough or have one value throughout.
-/

namespace ListTops

variable {β γ δ : Type*}

/-- `shown` are `count` members of a list, or all of them when it is shorter, in the order
of the list; those left out rank no higher than those shown. -/
structure TopOf (noHigher : β → β → Prop) (count : Nat) (all shown : List β) : Prop where
  sublist : shown.Sublist all
  length_eq : shown.length = min count all.length
  noneAbove : ∀ x ∈ all, x ∉ shown → ∀ y ∈ shown, noHigher x y

/-- All members of a list are its top when there are not too many. -/
theorem topOf_self (noHigher : β → β → Prop) {count : Nat} {all : List β}
    (hlength : all.length ≤ count) : TopOf noHigher count all all where
  sublist := List.Sublist.refl all
  length_eq := (Nat.min_eq_right hlength).symm
  noneAbove := fun _ hall hnot => absurd hall hnot

/-- The first members of a list sorted by rank are its top. -/
theorem topOf_take {noHigher : β → β → Prop} {all : List β}
    (hsorted : all.Pairwise fun x y => noHigher y x) (count : Nat) :
    TopOf noHigher count all (all.take count) where
  sublist := List.take_sublist count all
  length_eq := List.length_take
  noneAbove := by
    intro x hx hnot y hy
    have hsplit : x ∈ all.take count ++ all.drop count := by
      rwa [List.take_append_drop]
    rcases List.mem_append.mp hsplit with hfront | hback
    · exact absurd hfront hnot
    · rw [← List.take_append_drop count all] at hsorted
      exact (List.pairwise_append.mp hsorted).2.2 y hy x hback

/-- Every choice of members is a top when all have the same rank. -/
theorem topOf_take_of_equal {noHigher : β → β → Prop} {all : List β}
    (hequal : ∀ x ∈ all, ∀ y ∈ all, noHigher x y) (count : Nat) :
    TopOf noHigher count all (all.take count) where
  sublist := List.take_sublist count all
  length_eq := List.length_take
  noneAbove := fun x hx _ y hy => hequal x hx y (List.mem_of_mem_take hy)

/-- A loop that collects entries of some members until it has enough of them. -/
theorem foldl_collect (wanted : β → Bool) (entry : β → δ) (limit : Nat) (list : List β)
    (collected : List δ) :
    list.foldl (fun collected x =>
        if wanted x ∧ collected.length < limit then collected ++ [entry x] else collected)
        collected =
      collected ++ ((list.filter wanted).take (limit - collected.length)).map entry := by
  induction list generalizing collected with
  | nil => simp
  | cons x rest ih =>
      rw [List.foldl_cons, ih]
      cases hwanted : wanted x with
      | false => simp [hwanted]
      | true =>
          rcases Nat.lt_or_ge collected.length limit with hroom | hfull
          · obtain ⟨room, hlimit⟩ : ∃ room, limit = collected.length + (room + 1) :=
              ⟨limit - collected.length - 1, by omega⟩
            rw [if_pos ⟨rfl, hroom⟩, List.filter_cons_of_pos hwanted]
            have hleft : limit - collected.length = room + 1 := by omega
            have hless : limit - (collected ++ [entry x]).length = room := by
              rw [List.length_append, List.length_singleton]
              omega
            rw [hleft, hless, List.take_succ_cons, List.map_cons, List.append_assoc,
              List.singleton_append]
          · rw [if_neg (by omega), Nat.sub_eq_zero_of_le hfull, List.take_zero, List.take_zero]

section Values

variable [LinearOrder γ] {value : β → γ} {all shown : List β} {count : Nat}

/-- The highest member of a list ranks no higher than some member of the top. -/
theorem TopOf.exists_highest (htop : TopOf (fun x y => value x ≤ value y) count all shown)
    (hcount : 0 < count) (hnonempty : all ≠ []) :
    ∃ best ∈ shown, ∀ other ∈ all, value other ≤ value best := by
  have hshown : shown ≠ [] := by
    rw [← List.length_pos_iff, htop.length_eq]
    exact Nat.lt_min.mpr ⟨hcount, List.length_pos_iff.mpr hnonempty⟩
  obtain ⟨best, hbest⟩ := Option.ne_none_iff_exists'.mp
    (mt (List.argmax_eq_none (f := value)).mp hshown)
  have hmem := List.argmax_mem hbest
  refine ⟨best, hmem, fun other hother => ?_⟩
  by_cases hother' : other ∈ shown
  · exact List.le_of_mem_argmax hother' hbest
  · exact htop.noneAbove other hother hother' best hmem

theorem head_le (hsorted : all.Pairwise fun x y => value x ≤ value y) {first : β}
    (hfirst : all.head? = some first) : ∀ x ∈ all, value first ≤ value x := by
  obtain ⟨rest, rfl⟩ := List.head?_eq_some_iff.mp hfirst
  intro x hx
  rcases List.mem_cons.mp hx with rfl | hrest
  · exact le_rfl
  · exact (List.pairwise_cons.mp hsorted).1 x hrest

theorem le_getLast (hsorted : all.Pairwise fun x y => value x ≤ value y) {last : β}
    (hlast : all.getLast? = some last) : ∀ x ∈ all, value x ≤ value last := by
  obtain ⟨front, rfl⟩ := List.getLast?_eq_some_iff.mp hlast
  intro x hx
  rcases List.mem_append.mp hx with hfront | hx
  · exact (List.pairwise_append.mp hsorted).2.2 x hfront last List.mem_cons_self
  · rw [List.mem_singleton.mp hx]

/-- A choice and what it leaves out make up the list. -/
theorem TopOf.perm_leftOut [DecidableEq β] {noHigher : β → β → Prop} (hnodup : all.Nodup)
    (htop : TopOf noHigher count all shown) :
    (shown ++ all.filter fun x => x ∉ shown).Perm all := by
  have hchosen : (all.filter fun x => x ∈ shown).Perm shown := by
    apply (List.perm_ext_iff_of_nodup (hnodup.filter _) (hnodup.sublist htop.sublist)).mpr
    intro x
    simpa using fun hshown => htop.sublist.subset hshown
  have hsplit := List.filter_append_perm (fun x => decide (x ∈ shown)) all
  simp only [← decide_not] at hsplit
  exact (hchosen.symm.append_right _).trans hsplit

omit [LinearOrder γ] in
/-- When a choice has the values of the first members, those left out have the values of
the members behind them. -/
theorem TopOf.leftOut_values [DecidableEq β] (hnodup : all.Nodup)
    (htop : TopOf noHigher count all shown)
    (hvalues : shown.map value = (all.take count).map value) :
    ((all.filter fun x => x ∉ shown).map value).Perm ((all.drop count).map value) := by
  have hparts := (htop.perm_leftOut hnodup).map value
  have hall : all.map value = (all.take count).map value ++ (all.drop count).map value := by
    rw [← List.map_append, List.take_append_drop]
  rw [List.map_append, hvalues, hall] at hparts
  exact (List.perm_append_left_iff _).mp hparts

/-- In a list sorted by ascending value, a choice with the values of the first members is a
top for the opposite rank only if the list is short or has one value throughout. -/
theorem TopOf.length_le_or_equal (hnodup : all.Nodup)
    (hsorted : all.Pairwise fun x y => value x ≤ value y)
    (htop : TopOf (fun x y => value x ≤ value y) count all shown) (hcount : 0 < count)
    (hvalues : shown.map value = (all.take count).map value) :
    all.length ≤ count ∨ ∀ x ∈ all, ∀ y ∈ all, value x = value y := by
  classical
  rcases Nat.lt_or_ge count all.length with hlonger | hshort
  swap
  · exact Or.inl hshort
  right
  -- the lowest value is shown and the highest is left out
  obtain ⟨first, hfirst⟩ : ∃ first, all.head? = some first :=
    Option.ne_none_iff_exists'.mp fun hnone => by
      rw [List.head?_eq_none_iff] at hnone
      simp [hnone] at hlonger
  obtain ⟨last, hlast⟩ : ∃ last, all.getLast? = some last :=
    Option.ne_none_iff_exists'.mp fun hnone => by
      rw [List.getLast?_eq_none_iff] at hnone
      simp [hnone] at hlonger
  have hfirstMem : value first ∈ shown.map value := by
    rw [hvalues]
    apply List.mem_map_of_mem
    apply List.mem_of_mem_head?
    rw [List.head?_take, if_neg (by omega)]
    exact hfirst
  have hlastMem : value last ∈ (all.filter fun x => x ∉ shown).map value := by
    rw [(htop.leftOut_values hnodup hvalues).mem_iff]
    apply List.mem_map_of_mem
    apply List.mem_of_mem_getLast?
    rw [List.getLast?_drop, if_neg (by omega)]
    exact hlast
  obtain ⟨low, hlow, hlowValue⟩ := List.mem_map.mp hfirstMem
  obtain ⟨high, hhigh, hhighValue⟩ := List.mem_map.mp hlastMem
  obtain ⟨hhighMem, hhighNot⟩ := List.mem_filter.mp hhigh
  have hcollapse : value last ≤ value first := by
    rw [← hlowValue, ← hhighValue]
    exact htop.noneAbove high hhighMem (by simpa using hhighNot) low hlow
  have hbetween : ∀ x ∈ all, value x = value first := by
    intro x hx
    exact le_antisymm ((le_getLast hsorted hlast x hx).trans hcollapse)
      (head_le hsorted hfirst x hx)
  intro x hx y hy
  rw [hbetween x hx, hbetween y hy]

end Values

end ListTops
