import QuantTrading.Engine.Order
import Mathlib.Data.List.TakeWhile

/-! # C strings in memory

The transport hands over a pointer and a length; most functions take the pointer
as a C string and read up to the first NUL. Memory is the list of the characters
that may be read from a pointer on.
-/

namespace QuantTrading

/-- What stops the process. -/
inductive Fault where
  | nullPointer
  | outOfBounds
deriving DecidableEq, Repr

/-- What is known of the value of a result is known of the value itself. -/
theorem exists_of_map_eq_ok {ε β γ : Type} {result : Except ε β} {f : β → γ} {image : γ}
    (hmap : result.map f = .ok image) : ∃ value, result = .ok value ∧ f value = image := by
  cases result with
  | error fault => cases hmap
  | ok value => exact ⟨value, rfl, Except.ok.inj hmap⟩

/-- A loop in which every iteration succeeds. -/
theorem mapM_eq_ok {ε β γ : Type} {items : List β} {step : β → Except ε γ} {value : β → γ}
    (hstep : ∀ item ∈ items, step item = .ok (value item)) :
    items.mapM step = .ok (items.map value) := by
  induction items with
  | nil => rfl
  | cons item rest ih =>
      have hrest := ih fun other hother => hstep other (List.mem_cons_of_mem _ hother)
      rw [List.mapM_cons, hstep item List.mem_cons_self, hrest]
      rfl

theorem length_of_mapM_eq_ok {ε β γ : Type} {items : List β} {step : β → Except ε γ}
    {values : List γ} (hvalues : items.mapM step = .ok values) : values.length = items.length := by
  induction items generalizing values with
  | nil =>
      cases hvalues
      rfl
  | cons item rest ih =>
      rw [List.mapM_cons] at hvalues
      cases hitem : step item with
      | error fault =>
          rw [hitem] at hvalues
          cases hvalues
      | ok value =>
          cases hrest : rest.mapM step with
          | error fault =>
              rw [hitem, hrest] at hvalues
              cases hvalues
          | ok others =>
              rw [hitem, hrest] at hvalues
              cases hvalues
              rw [List.length_cons, List.length_cons, ih hrest]

/-- The terminator of a C string. -/
def nul : Char := '\x00'

/-- The C string at a pointer, when it ends inside the memory. -/
def readText (memory : List Char) : Except Fault CString :=
  if nul ∈ memory then .ok (memory.takeWhile (· ≠ nul)) else .error .outOfBounds

theorem readText_of_terminated {memory : List Char} (hnul : nul ∈ memory) :
    readText memory = .ok (memory.takeWhile (· ≠ nul)) :=
  if_pos hnul

theorem readText_append_nul {text rest : List Char} (htext : nul ∉ text) :
    readText (text ++ nul :: rest) = .ok text := by
  have hkeep : ∀ c ∈ text, decide (c ≠ nul) = true := by
    intro c hc
    simpa using fun heq : c = nul => htext (heq ▸ hc)
  rw [readText_of_terminated (by simp), List.takeWhile_append_of_pos hkeep]
  simp

/-- The C string is the first `len` characters exactly when these hold no NUL and
are followed by one. -/
theorem readText_eq_take_iff {memory : List Char} {len : Nat} :
    readText memory = .ok (memory.take len) ↔
      nul ∉ memory.take len ∧ memory[len]? = some nul := by
  constructor
  · intro hread
    unfold readText at hread
    split_ifs at hread with hnul
    have htake : memory.takeWhile (· ≠ nul) = memory.take len := by simpa using hread
    have hfree : nul ∉ memory.take len := by
      rw [← htake]
      intro hmem
      simpa using List.mem_takeWhile_imp hmem
    refine ⟨hfree, ?_⟩
    -- what follows the characters before the first NUL is that NUL
    have hsplit : memory.take len ++ memory.dropWhile (· ≠ nul) = memory := by
      rw [← htake]
      exact List.takeWhile_append_dropWhile
    have hdrop : memory.dropWhile (· ≠ nul) = memory.drop len := by
      have hboth := hsplit.trans (List.take_append_drop len memory).symm
      exact List.append_cancel_left hboth
    have hne : memory.dropWhile (· ≠ nul) ≠ [] := by
      intro hempty
      rw [hempty, List.append_nil] at hsplit
      exact hfree (hsplit.symm ▸ hnul)
    have hhead := List.head_dropWhile_not (· ≠ nul) hne
    rw [← List.head?_drop, ← hdrop, List.head?_eq_some_head hne]
    simpa using hhead
  · rintro ⟨hfree, hnext⟩
    obtain ⟨hlt, hvalue⟩ := List.getElem?_eq_some_iff.mp hnext
    have hsplit : memory = memory.take len ++ nul :: memory.drop (len + 1) := by
      rw [← hvalue, ← List.drop_eq_getElem_cons hlt, List.take_append_drop]
    rw [hsplit, readText_append_nul hfree, ← hsplit]

theorem readText_cons (c : Char) (memory : List Char) :
    readText (c :: memory) = if c = nul then .ok [] else (readText memory).map (c :: ·) := by
  unfold readText
  by_cases hc : c = nul
  · simp [hc]
  · by_cases hnul : nul ∈ memory
    · simp [hc, hnul, Except.map]
    · simp [hc, hnul, Ne.symm hc, Except.map]

theorem readText_cons_eq_ok_iff {c d : Char} {memory : List Char} {text : CString} :
    readText (c :: memory) = .ok (d :: text) ↔
      c ≠ nul ∧ c = d ∧ readText memory = .ok text := by
  rw [readText_cons]
  cases readText memory with
  | error fault =>
      split_ifs with hc
      · simp [hc]
      · simp [Except.map]
  | ok rest =>
      split_ifs with hc
      · simp [hc]
      · simp [Except.map, hc]

/-- `strcmp(memory, text) == 0`. Characters are compared until two differ or both strings end. -/
def strcmpEqual : List Char → CString → Except Fault Bool
  | [], _ => .error .outOfBounds
  | c :: _, [] => .ok (c = nul)
  | c :: memory, d :: text => if c = d ∧ c ≠ nul then strcmpEqual memory text else .ok false

/-- The comparison is one of the string at the pointer, unless the memory holds no NUL and is
where the other string begins. -/
theorem strcmpEqual_eq (memory : List Char) (text : CString) :
    strcmpEqual memory text =
      if nul ∉ memory ∧ memory <+: text then .error .outOfBounds
      else .ok (decide (readText memory = .ok text)) := by
  induction memory generalizing text with
  | nil => simp [strcmpEqual]
  | cons c memory ih =>
      cases text with
      | nil =>
          have hends : readText (c :: memory) = .ok [] ↔ c = nul := by
            rw [readText_cons]
            cases readText memory with
            | error fault => simp [Except.map]
            | ok rest => simp [Except.map]
          rw [strcmpEqual, if_neg (by simp)]
          simp only [hends]
      | cons d text =>
          rw [strcmpEqual]
          by_cases hsame : c = d ∧ c ≠ nul
          · obtain ⟨rfl, hc⟩ := hsame
            rw [if_pos ⟨rfl, hc⟩, ih]
            simp only [List.mem_cons, List.cons_prefix_cons, Ne.symm hc, false_or, true_and,
              readText_cons_eq_ok_iff, ne_eq, hc, not_false_eq_true]
          · have hdiffers : readText (c :: memory) ≠ .ok (d :: text) := by
              intro hread
              obtain ⟨hc, hcd, _⟩ := readText_cons_eq_ok_iff.mp hread
              exact hsame ⟨hcd, hc⟩
            rw [if_neg hsame, if_neg, decide_eq_false hdiffers]
            rintro ⟨hnul, hstart⟩
            rw [List.cons_prefix_cons] at hstart
            exact hsame ⟨hstart.1, fun heq => hnul (heq ▸ List.mem_cons_self)⟩

/-- A symbol that was cut off to the field of an entry stays as it is. -/
theorem take_take_symbol (symbol : CString) : (symbol.take 15).take 15 = symbol.take 15 := by
  rw [List.take_take, Nat.min_self]

/-- `snprintf` into a buffer of `size` characters: what is longer is cut off. -/
def snprintf (size : Nat) (text : CString) : CString :=
  text.take (size - 1)

/-- A `char` array inside a struct. -/
structure CharArray (size : Nat) where
  chars : List Char
  length_eq : chars.length = size
deriving DecidableEq, Repr

namespace CharArray

variable {size : Nat}

/-- An array filled with NULs. -/
def zero (size : Nat) : CharArray size where
  chars := List.replicate size nul
  length_eq := List.length_replicate

/-- `strncpy(array, source, sizeof(array) - 1)`: the copy is padded with NULs, and the
last character of the array stays as it was. -/
def strncpy (array : CharArray size) (source : CString) : CharArray size where
  chars := (source ++ List.replicate (size - 1) nul).take (size - 1) ++
    array.chars.drop (size - 1)
  length_eq := by
    have hlength := array.length_eq
    rw [List.length_append, List.length_take_of_le, List.length_drop]
    · omega
    · rw [List.length_append, List.length_replicate]
      exact Nat.le_add_left _ _

/-- The string that starts at the array. Reading on behind the array is a fault. -/
def text (array : CharArray size) : Except Fault CString :=
  readText array.chars

/-- A string read from the array has no NUL and is shorter than the array. -/
theorem text_eq_ok {array : CharArray size} {text : CString} (htext : array.text = .ok text) :
    nul ∉ text ∧ text.length < size := by
  unfold CharArray.text readText at htext
  split_ifs at htext with hnul
  cases htext
  refine ⟨fun hmem => by simpa using List.mem_takeWhile_imp hmem, ?_⟩
  refine lt_of_lt_of_eq ?_ array.length_eq
  refine lt_of_le_of_ne (List.takeWhile_prefix _).length_le fun hlength => ?_
  -- the characters before the first NUL are not all the characters
  have hall := (List.takeWhile_prefix (· ≠ nul) : _ <+: array.chars).eq_of_length hlength
  rw [List.takeWhile_eq_self_iff] at hall
  exact absurd (hall nul hnul) (by simp)

/-- The last character of the array is a NUL. -/
def Ends (array : CharArray size) : Prop :=
  array.chars[size - 1]? = some nul

instance (array : CharArray size) : Decidable array.Ends :=
  inferInstanceAs (Decidable (_ = _))

theorem zero_ends (hsize : 0 < size) : (zero size).Ends := by
  rw [Ends, zero, List.getElem?_replicate, if_pos (by omega)]

/-- A string copied into the array ends inside it: it is shorter than what is copied,
or the array ended in a NUL before. -/
def Holds (array : CharArray size) (source : CString) : Prop :=
  source.length < size - 1 ∨ array.Ends

instance (array : CharArray size) (source : CString) : Decidable (array.Holds source) :=
  inferInstanceAs (Decidable (_ ∨ _))

/-- What is cut off does not matter. -/
theorem holds_take_iff (array : CharArray size) (source : CString) :
    array.Holds (source.take (size - 1)) ↔ array.Holds source := by
  rw [Holds, Holds, List.length_take]
  constructor
  · exact fun hholds => hholds.imp_left fun hshort => by omega
  · exact fun hholds => hholds.imp_left fun hshort => by omega

/-- What `strncpy` leaves in an array: as much of the source as fits before the last
character. -/
theorem text_strncpy (hsize : 0 < size) (array : CharArray size) {source : CString}
    (hsource : nul ∉ source) :
    (array.strncpy source).text =
      if array.Holds source then .ok (source.take (size - 1)) else .error .outOfBounds := by
  have hfree : nul ∉ source.take (size - 1) := fun hmem => hsource (List.mem_of_mem_take hmem)
  have hlength := array.length_eq
  by_cases hshort : source.length < size - 1
  · obtain ⟨padding, hpadding⟩ : ∃ padding, size - 1 = source.length + (padding + 1) :=
      ⟨size - 1 - source.length - 1, by omega⟩
    have hholds : array.Holds source := Or.inl hshort
    rw [if_pos hholds, text, strncpy, List.take_of_length_le hshort.le]
    dsimp only
    rw [List.take_append, List.take_of_length_le hshort.le, hpadding,
      List.take_replicate, Nat.add_sub_cancel_left,
      show min (padding + 1) (source.length + (padding + 1)) = padding + 1 by omega,
      List.replicate_succ, List.append_assoc, List.cons_append, readText_append_nul hsource]
  · have hdrop : array.chars.drop (size - 1) = [array.chars.get ⟨size - 1, by omega⟩] := by
      rw [List.drop_eq_getElem_cons (by omega), List.drop_of_length_le (by omega)]
      rfl
    have htake : (source ++ List.replicate (size - 1) nul).take (size - 1) =
        source.take (size - 1) :=
      List.take_append_of_le_length (by omega)
    have hlast : array.Ends ↔ array.chars.get ⟨size - 1, by omega⟩ = nul := by
      rw [Ends, List.getElem?_eq_getElem (by omega), Option.some.injEq]
      rfl
    rw [text, strncpy]
    dsimp only
    rw [htake, hdrop]
    by_cases hends : array.Ends
    · have hholds : array.Holds source := Or.inr hends
      rw [if_pos hholds, hlast.mp hends, readText_append_nul hfree]
    · have hopen : ¬ array.Holds source := not_or.mpr ⟨hshort, hends⟩
      rw [if_neg hopen, readText, if_neg]
      rw [List.mem_append, List.mem_singleton]
      rintro (hmem | heq)
      · exact hfree hmem
      · exact hends (hlast.mpr heq.symm)

/-- What fits an array of NULs is read back as it is. -/
theorem text_zero_strncpy {source : CString} (hsource : nul ∉ source)
    (hlength : source.length < size) : ((zero size).strncpy source).text = .ok source := by
  have hsize : 0 < size := Nat.zero_lt_of_lt hlength
  have hholds : (zero size).Holds source := Or.inr (zero_ends hsize)
  rw [text_strncpy hsize _ hsource, if_pos hholds, List.take_of_length_le (by omega)]

/-- A string that can be read back is the source, cut off before the last character. -/
theorem eq_take_of_text_strncpy (hsize : 0 < size) {array : CharArray size}
    {source text : CString} (hsource : nul ∉ source)
    (htext : (array.strncpy source).text = .ok text) :
    text = source.take (size - 1) := by
  rw [text_strncpy hsize array hsource] at htext
  split_ifs at htext
  exact (Except.ok.inj htext).symm

end CharArray

end QuantTrading
