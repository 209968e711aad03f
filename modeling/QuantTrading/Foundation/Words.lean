import Mathlib.Data.List.Basic
import Mathlib.Data.List.TakeWhile

/-! # The words of a text

A text is split at its delimiters, and its words are the parts that are not empty. When
two texts are put together their words are too, except that the last word of the first
and the first word of the second become one where no delimiter stands between them.
-/

namespace Words

variable {β : Type*} {isDelimiter : β → Bool}

/-- The words of a text. -/
def words (isDelimiter : β → Bool) (text : List β) : List (List β) :=
  (text.splitOnP isDelimiter).filter fun part => !part.isEmpty

/-- A delimiter at the start is skipped. -/
theorem words_cons_of_delimiter {c : β} (hc : isDelimiter c = true) (text : List β) :
    words isDelimiter (c :: text) = words isDelimiter text := by
  rw [words, List.splitOnP_cons_eq_if_modifyHead, if_pos hc]
  rfl

theorem words_dropWhile (text : List β) :
    words isDelimiter (text.dropWhile isDelimiter) = words isDelimiter text := by
  induction text with
  | nil => rfl
  | cons c text ih =>
      cases hc : isDelimiter c with
      | true => rw [List.dropWhile_cons_of_pos hc, ih, words_cons_of_delimiter hc]
      | false => rw [List.dropWhile_cons_of_neg (by simp [hc])]

/-- Delimiters at the start are skipped. -/
theorem words_delimiters_append {first : List β} (hfirst : ∀ c ∈ first, isDelimiter c = true)
    (second : List β) : words isDelimiter (first ++ second) = words isDelimiter second := by
  rw [← words_dropWhile, List.dropWhile_append_of_pos hfirst, words_dropWhile]

/-- A text without delimiters is one word. -/
theorem words_of_plain {word : List β} (hword : word ≠ [])
    (hplain : ∀ c ∈ word, isDelimiter c = false) : words isDelimiter word = [word] := by
  rw [words, List.splitOnP_eq_singleton hplain]
  simp [hword]

/-- A delimiter ends the first word. -/
theorem words_append_cons {word : List β} (hword : word ≠ [])
    (hplain : ∀ c ∈ word, isDelimiter c = false) {c : β} (hc : isDelimiter c = true)
    (rest : List β) :
    words isDelimiter (word ++ c :: rest) = word :: words isDelimiter rest := by
  rw [words, List.splitOnP_append_cons_of_forall_mem hplain c hc]
  simp [words, hword]

/-- The first word goes up to the first delimiter, which is dropped. -/
theorem words_cons_of_plain {c : β} (hc : isDelimiter c = false) (others : List β) :
    words isDelimiter (c :: others) =
      (c :: others).takeWhile (fun d => !isDelimiter d) ::
        words isDelimiter (((c :: others).dropWhile fun d => !isDelimiter d).drop 1) := by
  have hplain : ∀ d ∈ (c :: others).takeWhile fun d => !isDelimiter d, isDelimiter d = false := by
    intro d hd
    simpa using List.mem_takeWhile_imp hd
  have hne : (c :: others).takeWhile (fun d => !isDelimiter d) ≠ [] := by simp [hc]
  have hsplit : words isDelimiter (c :: others) =
      words isDelimiter ((c :: others).takeWhile (fun d => !isDelimiter d) ++
        (c :: others).dropWhile fun d => !isDelimiter d) := by
    rw [List.takeWhile_append_dropWhile]
  rw [hsplit]
  cases hrest : (c :: others).dropWhile fun d => !isDelimiter d with
  | nil =>
      rw [List.append_nil, words_of_plain hne hplain]
      rfl
  | cons d rest =>
      have hd : isDelimiter d = true := by
        have hhead := List.head?_dropWhile_not (fun d => !isDelimiter d) (c :: others)
        rw [hrest] at hhead
        simpa using hhead
      exact words_append_cons hne hplain hd rest

/-- A text has no words when all of it is delimiters. -/
theorem words_eq_nil_iff {text : List β} :
    words isDelimiter text = [] ↔ ∀ c ∈ text, isDelimiter c = true := by
  induction text with
  | nil => simp [words]
  | cons c text ih =>
      cases hc : isDelimiter c with
      | true =>
          rw [words_cons_of_delimiter hc, ih]
          simp [hc]
      | false =>
          obtain ⟨first, others, hsplit⟩ :=
            List.exists_cons_of_ne_nil (List.splitOnP_ne_nil isDelimiter text)
          simp [words, List.splitOnP_cons_eq_if_modifyHead, hc, hsplit]

/-- The parts of two texts put together: the last of the first and the first of the
second are one. -/
theorem splitOnP_append {first second : List β} {init : List (List β)} {last : List β}
    (hfirst : first.splitOnP isDelimiter = init ++ [last]) {head : List β}
    {others : List (List β)} (hsecond : second.splitOnP isDelimiter = head :: others) :
    (first ++ second).splitOnP isDelimiter = init ++ (last ++ head) :: others := by
  induction first generalizing init last with
  | nil =>
      cases init with
      | nil =>
          cases hfirst
          exact hsecond
      | cons part init => simp at hfirst
  | cons c first ih =>
      obtain ⟨init', last', hsplit⟩ : ∃ init' last',
          first.splitOnP isDelimiter = init' ++ [last'] :=
        ⟨_, _, (List.dropLast_append_getLast (List.splitOnP_ne_nil isDelimiter first)).symm⟩
      have hjoin := ih hsplit
      rw [List.splitOnP_cons_eq_if_modifyHead, hsplit] at hfirst
      rw [List.cons_append, List.splitOnP_cons_eq_if_modifyHead, hjoin]
      split_ifs at hfirst ⊢ with hc
      · have hparts : [] :: init' ++ [last'] = init ++ [last] := hfirst
        obtain ⟨rfl, hlast⟩ := List.append_inj' hparts rfl
        cases hlast
        rfl
      -- the character goes to the first part, which is also the last if there is only one
      · cases init' with
        | nil =>
            have hparts : [] ++ [c :: last'] = init ++ [last] := hfirst
            obtain ⟨rfl, hlast⟩ := List.append_inj' hparts rfl
            cases hlast
            rfl
        | cons part init' =>
            have hparts : (c :: part) :: init' ++ [last'] = init ++ [last] := hfirst
            obtain ⟨rfl, hlast⟩ := List.append_inj' hparts rfl
            cases hlast
            rfl

variable (isDelimiter) in
/-- The words of two texts put together. -/
theorem words_append (first second : List β) :
    words isDelimiter (first ++ second) =
        words isDelimiter first ++ words isDelimiter second ∨
      ∃ init last more rest, words isDelimiter first = init ++ [last] ∧
        words isDelimiter second = more :: rest ∧ more ≠ [] ∧
        words isDelimiter (first ++ second) = init ++ (last ++ more) :: rest := by
  obtain ⟨init, last, hfirst⟩ : ∃ init last, first.splitOnP isDelimiter = init ++ [last] :=
    ⟨_, _, (List.dropLast_append_getLast (List.splitOnP_ne_nil isDelimiter first)).symm⟩
  obtain ⟨head, others, hsecond⟩ :=
    List.exists_cons_of_ne_nil (List.splitOnP_ne_nil isDelimiter second)
  have hjoin := splitOnP_append hfirst hsecond
  by_cases hlast : last = []
  · left
    simp [words, hjoin, hfirst, hsecond, hlast]
  by_cases hhead : head = []
  · left
    simp [words, hjoin, hfirst, hsecond, hhead, hlast]
  · right
    refine ⟨init.filter fun part => !part.isEmpty, last, head,
      others.filter fun part => !part.isEmpty, ?_, ?_, hhead, ?_⟩
    · simp [words, hfirst, hlast]
    · simp [words, hsecond, hhead]
    · simp [words, hjoin, hlast]

/-- Delimiters at the end add no word. -/
theorem words_append_delimiters (first : List β) {second : List β}
    (hsecond : ∀ c ∈ second, isDelimiter c = true) :
    words isDelimiter (first ++ second) = words isDelimiter first := by
  have hnil := words_eq_nil_iff.mpr hsecond
  rcases words_append isDelimiter first second with hwords | ⟨_, _, _, _, _, hmore, _, _⟩
  · rw [hwords, hnil, List.append_nil]
  · rw [hnil] at hmore
    cases hmore

end Words
