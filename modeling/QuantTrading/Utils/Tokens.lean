import QuantTrading.Foundation.Words
import QuantTrading.Utils.OrderLoader
import Mathlib.Data.List.DropRight

/-! # Blanks and tokens

What `trim_whitespace` and `strtok` make of a text. Trimming takes away the blanks
around it, and the tokens are its words.
-/

namespace QuantTrading

namespace OrderLoader

/-! ## Tokens -/

variable {isDelimiter : Char → Bool}

/-- A text without a token has no words. -/
theorem words_of_strtok_none {text : CString} (hnone : strtok isDelimiter text = none) :
    Words.words isDelimiter text = [] := by
  unfold strtok at hnone
  split at hnone
  next hdrop =>
    rw [← Words.words_dropWhile, hdrop]
    rfl
  · cases hnone

/-- A token is the first word, and the other words are those of the rest. -/
theorem words_of_strtok {text token rest : CString}
    (htoken : strtok isDelimiter text = some (token, rest)) :
    Words.words isDelimiter text = token :: Words.words isDelimiter rest := by
  unfold strtok at htoken
  split at htoken
  · cases htoken
  next c others hdrop =>
    have hc : isDelimiter c = false := by
      have hhead := List.head?_dropWhile_not isDelimiter text
      rw [hdrop] at hhead
      simpa using hhead
    cases htoken
    rw [← Words.words_dropWhile, hdrop]
    exact Words.words_cons_of_plain hc others

/-- The first word is a token. -/
theorem strtok_of_words {text word : CString} {others : List CString}
    (hwords : Words.words isDelimiter text = word :: others) :
    ∃ rest, strtok isDelimiter text = some (word, rest) ∧
      Words.words isDelimiter rest = others := by
  cases htoken : strtok isDelimiter text with
  | none =>
      rw [words_of_strtok_none htoken] at hwords
      cases hwords
  | some result =>
      obtain ⟨token, rest⟩ := result
      rw [words_of_strtok htoken] at hwords
      cases hwords
      exact ⟨rest, rfl, rfl⟩

/-- `strtok` finds no token, or the first word and the rest. -/
theorem strtok_cases (isDelimiter : Char → Bool) (text : CString) :
    (strtok isDelimiter text = none ∧ Words.words isDelimiter text = []) ∨
      ∃ token rest, strtok isDelimiter text = some (token, rest) ∧
        Words.words isDelimiter text = token :: Words.words isDelimiter rest := by
  cases htoken : strtok isDelimiter text with
  | none => exact .inl ⟨rfl, words_of_strtok_none htoken⟩
  | some result => exact .inr ⟨result.1, result.2, rfl, words_of_strtok htoken⟩

/-- What is done with a token and the rest of a text, as a function of the words. -/
theorem bind_strtok {γ : Type} {isDelimiter : Char → Bool} {text : CString}
    {next : CString × CString → Option γ} (finish : List CString → Option γ)
    (hnil : finish [] = none)
    (hnext : ∀ token rest,
      next (token, rest) = finish (token :: Words.words isDelimiter rest)) :
    (strtok isDelimiter text).bind next = finish (Words.words isDelimiter text) := by
  rcases strtok_cases isDelimiter text with ⟨hnone, hwords⟩ | ⟨token, rest, htoken, hwords⟩
  · rw [hnone, hwords, hnil]
    rfl
  · rw [htoken, hwords]
    exact hnext token rest

/-! ## Blanks -/

/-- Nothing but blanks. -/
def Blank (text : CString) : Prop :=
  ∀ c ∈ text, isSpace c = true

instance (text : CString) : Decidable (Blank text) :=
  decidable_of_iff (text.all isSpace = true) List.all_eq_true

@[simp] theorem Blank.nil : Blank [] := by simp [Blank]

@[simp] theorem blank_append {first second : CString} :
    Blank (first ++ second) ↔ Blank first ∧ Blank second :=
  List.forall_mem_append

/-- A NUL is no blank. -/
theorem Blank.nul_notMem {text : CString} (htext : Blank text) : '\x00' ∉ text := by
  intro hmem
  cases htext _ hmem

/-! ## Trimming -/

/-- A text is what is left of it after trimming, between blanks. -/
theorem exists_eq_trimWhitespace (text : CString) :
    ∃ before after, Blank before ∧ Blank after ∧
      text = before ++ (trimWhitespace text ++ after) := by
  refine ⟨text.takeWhile isSpace, (text.dropWhile isSpace).rtakeWhile isSpace, ?_, ?_, ?_⟩
  · intro c hc
    exact List.mem_takeWhile_imp hc
  · intro c hc
    exact List.mem_rtakeWhile_imp hc
  · rw [trimWhitespace, List.rdropWhile_append_rtakeWhile, List.takeWhile_append_dropWhile]

theorem trimWhitespace_mem {text : CString} {c : Char} (hc : c ∈ trimWhitespace text) :
    c ∈ text := by
  obtain ⟨before, after, _, _, htext⟩ := exists_eq_trimWhitespace text
  rw [htext]
  simp [hc]

theorem trimWhitespace_of_blank_append {blank : CString} (hblank : Blank blank)
    (text : CString) : trimWhitespace (blank ++ text) = trimWhitespace text := by
  rw [trimWhitespace, List.dropWhile_append_of_pos hblank]
  rfl

theorem rdropWhile_append_blank (text : CString) {blank : CString} (hblank : Blank blank) :
    (text ++ blank).rdropWhile isSpace = text.rdropWhile isSpace := by
  induction blank using List.reverseRecOn with
  | nil => rw [List.append_nil]
  | append_singleton blank c ih =>
      obtain ⟨hinit, hlast⟩ := blank_append.mp hblank
      rw [← List.append_assoc, List.rdropWhile_concat_pos _ _ _ (hlast c (by simp)), ih hinit]

theorem trimWhitespace_append_blank (text : CString) {blank : CString} (hblank : Blank blank) :
    trimWhitespace (text ++ blank) = trimWhitespace text := by
  rw [trimWhitespace, List.dropWhile_append]
  cases hdrop : text.dropWhile isSpace with
  | nil =>
      rw [trimWhitespace, hdrop, List.isEmpty_nil, if_pos rfl,
        List.dropWhile_eq_nil_iff.mpr hblank]
  | cons c rest =>
      rw [trimWhitespace, hdrop, List.isEmpty_cons, if_neg Bool.false_ne_true,
        rdropWhile_append_blank _ hblank]

@[simp] theorem trimWhitespace_trimWhitespace (text : CString) :
    trimWhitespace (trimWhitespace text) = trimWhitespace text := by
  obtain ⟨before, after, hbefore, hafter, htext⟩ := exists_eq_trimWhitespace text
  have htrim := congrArg trimWhitespace htext
  rw [trimWhitespace_of_blank_append hbefore, trimWhitespace_append_blank _ hafter] at htrim
  exact htrim.symm

/-- Cutting the end in place and skipping the blanks trims a text. -/
theorem trimWhitespace_trimmedBuffer (text : CString) :
    trimWhitespace (trimmedBuffer text) = trimWhitespace text := by
  rw [trimmedBuffer, trimWhitespace_of_blank_append fun c hc => List.mem_takeWhile_imp hc,
    trimWhitespace_trimWhitespace]

theorem trimWhitespace_eq_nil_iff {text : CString} :
    trimWhitespace text = [] ↔ Blank text := by
  constructor
  · intro hnil
    obtain ⟨before, after, hbefore, hafter, htext⟩ := exists_eq_trimWhitespace text
    rw [htext, hnil, List.nil_append, blank_append]
    exact ⟨hbefore, hafter⟩
  · intro hblank
    rw [trimWhitespace, List.dropWhile_eq_nil_iff.mpr hblank]
    rfl

/-- A text that starts and ends without a blank stays as it is. -/
theorem trimWhitespace_of_ends {text : CString} (hhead : ∀ c ∈ text.head?, isSpace c = false)
    (hlast : ∀ c ∈ text.getLast?, isSpace c = false) : trimWhitespace text = text := by
  have hdrop : text.dropWhile isSpace = text := by
    cases text with
    | nil => rfl
    | cons c rest => exact List.dropWhile_cons_of_neg (by simp [hhead c rfl])
  rw [trimWhitespace, hdrop, List.rdropWhile_eq_self_iff]
  intro hne
  rw [hlast _ (List.getLast?_eq_getLast_of_ne_nil hne)]
  exact Bool.false_ne_true

theorem trimWhitespace_of_plain {text : CString} (hplain : ∀ c ∈ text, isSpace c = false) :
    trimWhitespace text = text := by
  apply trimWhitespace_of_ends
  · intro c hc
    exact hplain c (List.mem_of_mem_head? hc)
  · intro c hc
    exact hplain c (List.mem_of_mem_getLast? hc)

end OrderLoader

end QuantTrading
