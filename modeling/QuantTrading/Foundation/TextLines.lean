import Mathlib.Data.List.Forall2
import Mathlib.Data.List.TakeWhile

/-! # Lines and pieces of a text

A text is cut after each line end, and a line is cut into pieces of a fixed size. What is
made of the lines of a text one after the other corresponds to some of the lines exactly
when each of them is answered on its own.
-/

namespace TextLines

variable {β γ : Type*}

/-! ## Lines -/

/-- The lines of a text, each with its end; the last may have none. -/
def lines (isEnd : β → Bool) : List β → List (List β)
  | [] => []
  | c :: rest =>
      if isEnd c then [c] :: lines isEnd rest
      else
        match lines isEnd rest with
        | [] => [[c]]
        | line :: others => (c :: line) :: others

/-- A first line, before the rest of a text. -/
structure IsFirstLine (isEnd : β → Bool) (line rest : List β) : Prop where
  plain : ∀ c ∈ line.dropLast, isEnd c = false
  ended : rest = [] ∨ ∃ c ∈ line.getLast?, isEnd c = true

variable {isEnd : β → Bool}

/-- Where a line has no end, it is the last. -/
theorem IsFirstLine.of_cons {c : β} {line rest : List β}
    (hline : IsFirstLine isEnd (c :: line) rest) (hc : isEnd c = false) :
    IsFirstLine isEnd line rest := by
  obtain ⟨hplain, hended⟩ := hline
  cases line with
  | nil =>
      refine ⟨by simp, .inl ?_⟩
      rcases hended with hrest | ⟨d, hd, hend⟩
      · exact hrest
      · cases hd
        exact absurd (hend.symm.trans hc) (by decide)
  | cons d line =>
      refine ⟨?_, ?_⟩
      · intro e he
        exact hplain e (List.mem_cons_of_mem c he)
      · rwa [List.getLast?_cons_cons] at hended

/-- A line end stands at the end of its line. -/
theorem IsFirstLine.eq_nil_of_cons {c : β} {line rest : List β}
    (hline : IsFirstLine isEnd (c :: line) rest) (hc : isEnd c = true) : line = [] := by
  cases line with
  | nil => rfl
  | cons d line =>
      have hplain := hline.plain c List.mem_cons_self
      rw [hc] at hplain
      cases hplain

/-- The end of a first line is one too, if anything is left. -/
theorem IsFirstLine.drop {line rest : List β} (hline : IsFirstLine isEnd line rest) {count : Nat}
    (hne : line.drop count ≠ []) : IsFirstLine isEnd (line.drop count) rest := by
  induction count generalizing line with
  | zero => exact hline
  | succ count ih =>
      cases line with
      | nil => exact absurd rfl hne
      | cons c line =>
          rw [List.drop_succ_cons] at hne ⊢
          apply ih _ hne
          cases hc : isEnd c with
          | false => exact hline.of_cons hc
          | true =>
              rw [hline.eq_nil_of_cons hc] at hne
              exact absurd List.drop_nil hne

/-- The first line, and the lines of the rest. -/
theorem lines_append {line rest : List β} (hne : line ≠ [])
    (hline : IsFirstLine isEnd line rest) :
    lines isEnd (line ++ rest) = line :: lines isEnd rest := by
  induction line with
  | nil => exact absurd rfl hne
  | cons c line ih =>
      rw [List.cons_append, lines]
      cases hc : isEnd c with
      | true =>
          rw [if_pos rfl, hline.eq_nil_of_cons hc]
          rfl
      | false =>
          rw [if_neg Bool.false_ne_true]
          have htail := hline.of_cons hc
          cases line with
          | nil =>
              rcases htail.ended with rfl | ⟨d, hd, _⟩
              · rfl
              · cases hd
          | cons d line => rw [ih (by simp) htail]

variable (isEnd) in
/-- A text that is not empty has a first line. -/
theorem exists_isFirstLine {text : List β} (hne : text ≠ []) :
    ∃ line rest, text = line ++ rest ∧ line ≠ [] ∧ IsFirstLine isEnd line rest := by
  induction text with
  | nil => exact absurd rfl hne
  | cons c text ih =>
      cases hc : isEnd c with
      | true => exact ⟨[c], text, rfl, by simp, by simp, .inr ⟨c, rfl, hc⟩⟩
      | false =>
          by_cases htext : text = []
          · exact ⟨[c], [], by rw [htext]; rfl, by simp, by simp, .inl rfl⟩
          obtain ⟨line, rest, rfl, hline, hplain, hended⟩ := ih htext
          refine ⟨c :: line, rest, rfl, by simp, ?_, ?_⟩
          · rw [List.dropLast_cons_of_ne_nil hline]
            exact List.forall_mem_cons.mpr ⟨hc, hplain⟩
          · obtain ⟨d, others, rfl⟩ := List.exists_cons_of_ne_nil hline
            rwa [List.getLast?_cons_cons]

/-- A line has an end at most at its end. -/
theorem plain_of_mem_lines {text line : List β} (hline : line ∈ lines isEnd text) :
    line ≠ [] ∧ ∀ c ∈ line.dropLast, isEnd c = false := by
  induction text generalizing line with
  | nil => cases hline
  | cons c text ih =>
      rw [lines] at hline
      split_ifs at hline with hc
      · rcases List.mem_cons.mp hline with rfl | hrest
        · simp
        · exact ih hrest
      · split at hline
        next hnone =>
          obtain rfl := List.mem_singleton.mp hline
          simp
        next first others hlines =>
          rw [hlines] at ih
          rcases List.mem_cons.mp hline with rfl | hothers
          · obtain ⟨hne, hplain⟩ := ih List.mem_cons_self
            refine ⟨List.cons_ne_nil _ _, ?_⟩
            rw [List.dropLast_cons_of_ne_nil hne]
            exact List.forall_mem_cons.mpr ⟨Bool.eq_false_iff.mpr hc, hplain⟩
          · exact ih (List.mem_cons_of_mem first hothers)

/-- Nothing follows the line end of a line. -/
theorem eq_nil_of_plain {before after : List β} {c : β}
    (hplain : ∀ d ∈ (before ++ c :: after).dropLast, isEnd d = false) (hc : isEnd c = true) :
    after = [] := by
  by_contra hne
  have hmem : c ∈ (before ++ c :: after).dropLast := by
    rw [List.dropLast_append_cons, List.dropLast_cons_of_ne_nil hne]
    simp
  rw [hplain c hmem] at hc
  cases hc

/-! ## Pieces -/

/-- A text cut into pieces of a size, of which the last may be shorter. -/
def pieces (size : Nat) (text : List β) : List (List β) :=
  if text = [] ∨ size = 0 then []
  else text.take size :: pieces size (text.drop size)
termination_by text.length
decreasing_by
  rename_i hcut
  obtain ⟨hne, hsize⟩ := not_or.mp hcut
  have hlength := List.length_pos_of_ne_nil hne
  rw [List.length_drop]
  omega

@[simp] theorem pieces_nil (size : Nat) : pieces size ([] : List β) = [] := by
  rw [pieces, if_pos (.inl rfl)]

theorem pieces_of_ne_nil {size : Nat} (hsize : 0 < size) {text : List β} (hne : text ≠ []) :
    pieces size text = text.take size :: pieces size (text.drop size) := by
  rw [pieces, if_neg]
  rintro (hnil | hzero)
  · exact hne hnil
  · omega

/-- A short text is one piece. -/
theorem pieces_of_length_le {size : Nat} {text : List β} (hne : text ≠ [])
    (hlength : text.length ≤ size) : pieces size text = [text] := by
  have hpos := List.length_pos_of_ne_nil hne
  rw [pieces_of_ne_nil (by omega) hne, List.take_of_length_le hlength,
    List.drop_of_length_le hlength, pieces_nil]

theorem flatten_pieces {size : Nat} (hsize : 0 < size) (text : List β) :
    (pieces size text).flatten = text := by
  by_cases hne : text = []
  · rw [hne, pieces_nil]
    rfl
  have hlength := List.length_pos_of_ne_nil hne
  have hshorter : (text.drop size).length < text.length := by
    rw [List.length_drop]
    omega
  rw [pieces_of_ne_nil hsize hne, List.flatten_cons, flatten_pieces hsize, List.take_append_drop]
termination_by text.length

/-- A piece stands between the pieces before it and those after it. -/
theorem exists_split_pieces {size : Nat} (hsize : 0 < size) {text piece : List β}
    (hpiece : piece ∈ pieces size text) :
    ∃ front back, pieces size text = front ++ piece :: back ∧
      text = front.flatten ++ (piece ++ back.flatten) := by
  obtain ⟨front, back, hsplit⟩ := List.append_of_mem hpiece
  refine ⟨front, back, hsplit, ?_⟩
  have hflatten := flatten_pieces hsize text
  rw [hsplit, List.flatten_append, List.flatten_cons] at hflatten
  exact hflatten.symm

/-- A piece of a line has a line end at most at its end. -/
theorem plain_of_mem_pieces {size : Nat} (hsize : 0 < size) {line piece : List β}
    (hline : ∀ c ∈ line.dropLast, isEnd c = false) (hpiece : piece ∈ pieces size line) :
    ∀ c ∈ piece.dropLast, isEnd c = false := by
  obtain ⟨front, back, -, htext⟩ := exists_split_pieces hsize hpiece
  intro c hc
  have hne : piece ≠ [] := by
    rintro rfl
    cases hc
  apply hline
  rw [htext, List.dropLast_append_of_ne_nil (List.append_ne_nil_of_left_ne_nil hne _)]
  apply List.mem_append_right
  by_cases hback : back.flatten = []
  · rwa [hback, List.append_nil]
  · rw [List.dropLast_append_of_ne_nil hback]
    exact List.mem_append_left _ (List.dropLast_subset _ hc)

/-! ## Correspondence -/

section Correspondence

variable {R : β → γ → Prop} {f : γ → List β} {p : γ → Bool}

theorem length_filter_le_length_flatMap {lines : List γ}
    (hmin : ∀ line ∈ lines, p line = true → f line ≠ []) :
    (lines.filter p).length ≤ (lines.flatMap f).length := by
  induction lines with
  | nil => rfl
  | cons line lines ih =>
      obtain ⟨hline, hlines⟩ := List.forall_mem_cons.mp hmin
      have hrest := ih hlines
      rw [List.flatMap_cons, List.length_append, List.filter_cons]
      split_ifs with hp
      · have hpos := List.length_pos_of_ne_nil (hline hp)
        rw [List.length_cons]
        omega
      · omega

theorem exists_mem_of_forall₂ {first : List β} {second : List γ}
    (hall : List.Forall₂ R first second) {y : γ} (hy : y ∈ second) : ∃ x ∈ first, R x y := by
  induction hall with
  | nil => cases hy
  | cons hhead _ ih =>
      rcases List.mem_cons.mp hy with rfl | hrest
      · exact ⟨_, List.mem_cons_self, hhead⟩
      · obtain ⟨x, hx, hrel⟩ := ih hrest
        exact ⟨x, List.mem_cons_of_mem _ hx, hrel⟩

theorem forall₂_append_iff {first first' : List β} {second second' : List γ}
    (hlength : first.length = second.length) :
    List.Forall₂ R (first ++ first') (second ++ second') ↔
      List.Forall₂ R first second ∧ List.Forall₂ R first' second' := by
  induction first generalizing second with
  | nil =>
      obtain rfl := List.length_eq_zero_iff.mp hlength.symm
      simp
  | cons x first ih =>
      obtain ⟨y, second, rfl⟩ :=
        List.exists_cons_of_length_eq_add_one (hlength.symm.trans List.length_cons)
      simp only [List.cons_append, List.forall₂_cons, ih (Nat.succ.inj hlength), and_assoc]

/-- If the chosen lines are all answered, the answers correspond to them one to one
exactly when each has one answer and the other lines have none. -/
theorem forall₂_flatMap_filter_iff {lines : List γ}
    (hmin : ∀ line ∈ lines, p line = true → f line ≠ []) :
    List.Forall₂ R (lines.flatMap f) (lines.filter p) ↔
      ∀ line ∈ lines, List.Forall₂ R (f line) (if p line then [line] else []) := by
  induction lines with
  | nil => simp
  | cons line lines ih =>
      obtain ⟨hline, hlines⟩ := List.forall_mem_cons.mp hmin
      have hsplit : (line :: lines).filter p =
          (if p line then [line] else []) ++ lines.filter p := by
        rw [List.filter_cons]
        split_ifs <;> rfl
      have hfirst : (if p line then [line] else []).length ≤ (f line).length := by
        split_ifs with hp
        · exact List.length_pos_of_ne_nil (hline hp)
        · exact Nat.zero_le _
      have hrest := length_filter_le_length_flatMap hlines
      rw [List.forall_mem_cons, ← ih hlines, List.flatMap_cons, hsplit]
      constructor
      · intro hall
        have hlength := hall.length_eq
        rw [List.length_append, List.length_append] at hlength
        exact (forall₂_append_iff (by omega)).mp hall
      · rintro ⟨hfirst, hrest⟩
        exact List.rel_append hfirst hrest

end Correspondence

end TextLines
