import QuantTrading.Protocol.JsonForms
import Mathlib.Data.List.Forall2

/-! # Printing JSON

A printer of JSON values, with the layout of `cJSON_Print`: the members of an object on
lines of their own, behind as many tabs as they are deep. What is printed is read back as
the value it was printed from. How a number is printed is a parameter.
-/

namespace QuantTrading

namespace JsonText

/-! ## Strings -/

/-- A character in a string. Control characters are escaped by number. -/
def escapeChar (c : Char) : CString :=
  if c = '"' ∨ c = '\\' then ['\\', c]
  else if isPlain c then [c]
  else '\\' :: 'u' :: '0' :: '0' :: [(c.toNat / 16).digitChar, (c.toNat % 16).digitChar]

def escapeString (text : CString) : CString :=
  text.flatMap escapeChar

theorem control_of_not_plain {c : Char} (hquote : ¬ (c = '"' ∨ c = '\\'))
    (hc : ¬ isPlain c = true) : c.toNat < 32 := by
  rw [not_or] at hquote
  have hlt : c < ' ' := by simpa [isPlain, hquote] using hc
  exact hlt

/-- The number of a control character is read as this character. -/
theorem readEscape_control {c : Char} (hcontrol : c.toNat < 32) (hc : c ≠ nul) (rest : CString) :
    readEscape ('u' :: '0' :: '0' :: (c.toNat / 16).digitChar :: (c.toNat % 16).digitChar ::
      rest) = some (c, rest) := by
  have hcodes : ∀ code < 32,
      codeUnit '0' '0' (code / 16).digitChar (code % 16).digitChar = some code := by decide
  have hcharacters : ∀ code < 32, code ≠ 0 → character code = some (Char.ofNat code) := by decide
  have hzero : c.toNat ≠ 0 := fun heq => hc (Char.toNat_inj.mp heq)
  have hcode := hcodes _ hcontrol
  have hcharacter := hcharacters _ hcontrol hzero
  rw [Char.ofNat_toNat] at hcharacter
  simp only [readEscape, unicodeEscape, hcode, Option.map_some, hcharacter]

/-- A plain character belongs to the string. -/
theorem cutString_cons {c : Char} (hc : isPlain c = true) (rest : CString) :
    cutString (c :: rest) = (cutString rest).map fun cut => (c :: cut.1, cut.2) := by
  obtain ⟨hquote, hescape⟩ := ne_of_isPlain hc
  rw [cutString, if_pos hc]
  · exact hquote
  · exact fun _ _ heq => absurd heq hescape

theorem cutString_escapeChar (c : Char) (rest : CString) :
    cutString (escapeChar c ++ rest) =
      (cutString rest).map fun cut => (escapeChar c ++ cut.1, cut.2) := by
  unfold escapeChar
  split_ifs with hquote hplain
  · rfl
  · exact cutString_cons hplain rest
  · have hcontrol := control_of_not_plain hquote hplain
    have hdigits : ∀ code < 32, isPlain (code / 16).digitChar = true ∧
        isPlain (code % 16).digitChar = true := by decide
    obtain ⟨hhigh, hlow⟩ := hdigits _ hcontrol
    have hzero : isPlain '0' = true := by decide
    simp only [List.cons_append, List.nil_append]
    rw [cutString, cutString_cons hzero, cutString_cons hzero, cutString_cons hhigh,
      cutString_cons hlow]
    simp only [Option.map_map]
    rfl

theorem cutString_escapeString (text rest : CString) :
    cutString (escapeString text ++ '"' :: rest) = some (escapeString text, rest) := by
  induction text with
  | nil => rfl
  | cons c others ih =>
      rw [escapeString, List.flatMap_cons, List.append_assoc, cutString_escapeChar]
      rw [escapeString] at ih
      rw [ih]
      rfl

theorem decodeString_escape {text rest : CString} {c : Char}
    (hread : readEscape text = some (c, rest)) (fuel : Nat) :
    decodeString (fuel + 1) ('\\' :: text) =
      (decodeString fuel rest).map fun value => c :: value := by
  rw [decodeString, hread]
  change (decodeString fuel rest).bind _ = _
  cases decodeString fuel rest with
  | none => rfl
  | some value => rfl

theorem decodeString_escapeChar {c : Char} (hc : c ≠ nul) (fuel : Nat) (rest : CString) :
    decodeString (fuel + 1) (escapeChar c ++ rest) =
      (decodeString fuel rest).map fun value => c :: value := by
  unfold escapeChar
  split_ifs with hquote hplain
  · rcases hquote with rfl | rfl
    · exact decodeString_escape rfl fuel
    · exact decodeString_escape rfl fuel
  · rw [not_or] at hquote
    rw [List.singleton_append, decodeString]
    exact hquote.2
  · have hcontrol := control_of_not_plain hquote hplain
    exact decodeString_escape (readEscape_control hcontrol hc rest) fuel

theorem decodeString_escapeString {text : CString} (htext : nul ∉ text) {fuel : Nat}
    (hfuel : text.length ≤ fuel) : decodeString fuel (escapeString text) = some text := by
  induction text generalizing fuel with
  | nil => cases fuel <;> rfl
  | cons c others ih =>
      rw [List.mem_cons, not_or] at htext
      obtain ⟨fuel, rfl⟩ : ∃ less, fuel = less + 1 := ⟨fuel - 1, by
        rw [List.length_cons] at hfuel
        omega⟩
      rw [escapeString, List.flatMap_cons, decodeString_escapeChar (Ne.symm htext.1)]
      rw [← escapeString, ih htext.2 (Nat.le_of_succ_le_succ hfuel)]
      rfl

theorem length_le_escapeString (text : CString) : text.length ≤ (escapeString text).length := by
  induction text with
  | nil => exact le_rfl
  | cons c others ih =>
      have hchar : 1 ≤ (escapeChar c).length := by
        unfold escapeChar
        split_ifs <;> simp
      rw [escapeString, List.flatMap_cons, List.length_append, List.length_cons]
      rw [escapeString] at ih
      omega

/-- A printed string is read back. -/
theorem readString_escapeString {text : CString} (htext : nul ∉ text) (rest : CString) :
    readString (escapeString text ++ '"' :: rest) = some (text, rest) := by
  rw [readString, cutString_escapeString]
  change (decodeString _ _).bind _ = _
  rw [decodeString_escapeString htext (length_le_escapeString text)]
  rfl

/-! ## Values -/

section Values

variable {α : Type} (printNumber : α → CString)

/-- A member with the text of its value. -/
def printMember (depth : Nat) (name text : CString) : CString :=
  List.replicate depth '\t' ++ '"' :: (escapeString name ++ '"' :: ':' :: '\t' :: text)

mutual

/-- A value that stands at a depth. -/
def printValue (depth : Nat) : Json α → CString
  | .null => "null".toList
  | .bool true => "true".toList
  | .bool false => "false".toList
  | .number value => printNumber value
  | .string value => '"' :: (escapeString value ++ ['"'])
  | .array items => '[' :: (", ".toList.intercalate (printItems depth items) ++ [']'])
  | .object members =>
      '\x7b' :: '\n' :: (",\n".toList.intercalate (printMembers (depth + 1) members) ++
        ((if members.isEmpty then [] else ['\n']) ++ (List.replicate depth '\t' ++ ['\x7d'])))

def printItems (depth : Nat) : List (Json α) → List CString
  | [] => []
  | item :: rest => printValue (depth + 1) item :: printItems depth rest

def printMembers (depth : Nat) : List (CString × Json α) → List CString
  | [] => []
  | (name, value) :: rest =>
      printMember depth name (printValue depth value) :: printMembers depth rest

end

/-- The text of a value. -/
def print (value : Json α) : CString :=
  printValue printNumber 0 value

mutual

/-- No string and no name in a value holds NUL. -/
def NoNul : Json α → Prop
  | .string value => nul ∉ value
  | .array items => NoNulItems items
  | .object members => NoNulMembers members
  | _ => True

def NoNulItems : List (Json α) → Prop
  | [] => True
  | item :: rest => NoNul item ∧ NoNulItems rest

def NoNulMembers : List (CString × Json α) → Prop
  | [] => True
  | (name, value) :: rest => nul ∉ name ∧ NoNul value ∧ NoNulMembers rest

end

end Values

/-! ## Reading what was printed -/

section Reading

variable {α : Type} {ofNumeral : CString → α}

/-- What follows a printed value. -/
def EndsValue (rest : CString) : Prop :=
  ∀ c ∈ rest.head?, c = ',' ∨ c = '\n' ∨ c = ']'

/-- A text that is read as a value, whatever follows. -/
structure Reads (ofNumeral : CString → α) (text : CString) (value : Json α) : Prop where
  starts : ∃ c more, text = c :: more ∧ isBlank c = false ∧ c ≠ ']'
  reads : ∀ fuel rest, text.length ≤ fuel → EndsValue rest →
    readValue ofNumeral fuel (text ++ rest) = some (value, rest)

theorem skipBlanks_tabs (count : Nat) (rest : CString) :
    skipBlanks (List.replicate count '\t' ++ rest) = skipBlanks rest := by
  induction count with
  | zero => rfl
  | succ count ih =>
      rw [List.replicate_succ, List.cons_append, ← ih]
      rfl

theorem intercalate_cons {separator text : CString} {texts : List CString} (hne : texts ≠ []) :
    separator.intercalate (text :: texts) = text ++ (separator ++ separator.intercalate texts) := by
  cases texts with
  | nil => exact absurd rfl hne
  | cons next rest => simp [List.intercalate]

/-- Texts in a row start as the first of them. -/
theorem intercalate_starts {texts : List CString} {items : List (Json α)}
    (hreads : List.Forall₂ (Reads ofNumeral) texts items) (hne : texts ≠ [])
    (separator : CString) :
    ∃ c more, separator.intercalate texts = c :: more ∧ isBlank c = false ∧ c ≠ ']' := by
  cases hreads with
  | nil => exact absurd rfl hne
  | @cons text item texts items hread hreads =>
      obtain ⟨c, more, rfl, hblank, hbracket⟩ := hread.starts
      by_cases hlater : texts = []
      · subst hlater
        exact ⟨c, more, by simp [List.intercalate], hblank, hbracket⟩
      · exact ⟨c, _, intercalate_cons hlater, hblank, hbracket⟩

/-- The items of an array are read one after the other. -/
theorem readItems_intercalate {texts : List CString} {items : List (Json α)}
    (hreads : List.Forall₂ (Reads ofNumeral) texts items) (hne : texts ≠ []) {fuel : Nat}
    (hfuel : (", ".toList.intercalate texts).length < fuel) (rest : CString) :
    readItems ofNumeral fuel (", ".toList.intercalate texts ++ ']' :: rest) =
      some (items, rest) := by
  induction hreads generalizing fuel with
  | nil => exact absurd rfl hne
  | @cons text item texts items hread hreads ih =>
      obtain ⟨fuel, rfl⟩ : ∃ less, fuel = less + 1 := ⟨fuel - 1, by omega⟩
      by_cases hlater : texts = []
      · subst hlater
        cases hreads
        have hends : EndsValue (']' :: rest) := by
          rintro c ⟨⟩
          exact Or.inr (Or.inr rfl)
        have hsingle : ", ".toList.intercalate [text] = text := by simp [List.intercalate]
        rw [hsingle] at hfuel ⊢
        rw [readItems, hread.reads fuel _ (Nat.le_of_lt_succ hfuel) hends]
        rfl
      · have hends : EndsValue (',' :: ' ' :: (", ".toList.intercalate texts ++ ']' :: rest)) := by
          rintro c ⟨⟩
          exact Or.inl rfl
        have hsplit : ", ".toList.intercalate (text :: texts) ++ ']' :: rest =
            text ++ ',' :: ' ' :: (", ".toList.intercalate texts ++ ']' :: rest) := by
          rw [intercalate_cons hlater]
          simp
        have hlength : (", ".toList.intercalate (text :: texts)).length =
            text.length + (2 + (", ".toList.intercalate texts).length) := by
          rw [intercalate_cons hlater, List.length_append, List.length_append]
          rfl
        obtain ⟨c, more, hstart, hblank, _⟩ := intercalate_starts hreads hlater ", ".toList
        have hskip : skipBlanks (' ' :: (", ".toList.intercalate texts ++ ']' :: rest)) =
            ", ".toList.intercalate texts ++ ']' :: rest := by
          rw [hstart]
          exact skipBlanks_of_visible hblank _
        rw [hsplit, readItems, hread.reads fuel _ (by omega) hends]
        change afterEntry ']' (readItems ofNumeral fuel) item (',' :: _) = _
        rw [afterEntry_comma, hskip, ih hlater (by omega)]
        rfl

/-- A text that is read as a member of an object. -/
def ReadsMember (ofNumeral : CString → α) (depth : Nat) (text : CString)
    (member : CString × Json α) : Prop :=
  ∃ valueText, text = printMember depth member.1 valueText ∧ nul ∉ member.1 ∧
    Reads ofNumeral valueText member.2

theorem readMembers_printMember {name text : CString} {value : Json α} (hname : nul ∉ name)
    (hread : Reads ofNumeral text value) {fuel : Nat} (hfuel : text.length ≤ fuel) (depth : Nat)
    {rest : CString} (hends : EndsValue rest) :
    readMembers ofNumeral (fuel + 1) (skipBlanks (printMember depth name text ++ rest)) =
      afterEntry '\x7d' (readMembers ofNumeral fuel) (name, value) rest := by
  have hstart : skipBlanks (printMember depth name text ++ rest) =
      '"' :: (escapeString name ++ '"' :: (':' :: '\t' :: (text ++ rest))) := by
    rw [printMember, List.append_assoc, skipBlanks_tabs, List.cons_append,
      skipBlanks_of_visible (by decide)]
    simp
  have hskip : skipBlanks ('\t' :: (text ++ rest)) = text ++ rest := by
    obtain ⟨c, more, rfl, hblank, _⟩ := hread.starts
    exact skipBlanks_of_visible hblank _
  rw [hstart, readMembers, readString_escapeString hname]
  change (readValue ofNumeral fuel (skipBlanks _)).bind _ = _
  rw [hskip, hread.reads fuel rest hfuel hends]
  rfl

/-- The members of an object are read one after the other. -/
theorem readMembers_intercalate {depth : Nat} {texts : List CString}
    {members : List (CString × Json α)}
    (hreads : List.Forall₂ (ReadsMember ofNumeral depth) texts members) (hne : texts ≠ [])
    {fuel : Nat} (hfuel : (",\n".toList.intercalate texts).length ≤ fuel) (outer : Nat)
    (rest : CString) :
    readMembers ofNumeral fuel (skipBlanks (",\n".toList.intercalate texts ++
      '\n' :: (List.replicate outer '\t' ++ '\x7d' :: rest))) = some (members, rest) := by
  induction hreads generalizing fuel with
  | nil => exact absurd rfl hne
  | @cons text member texts members hread hreads ih =>
      obtain ⟨valueText, rfl, hname, hvalue⟩ := hread
      have hmember : valueText.length < (printMember depth member.1 valueText).length := by
        simp only [printMember, List.length_append, List.length_cons]
        omega
      by_cases hlater : texts = []
      · subst hlater
        cases hreads
        have hsingle : ",\n".toList.intercalate [printMember depth member.1 valueText] =
            printMember depth member.1 valueText := by simp [List.intercalate]
        rw [hsingle] at hfuel ⊢
        obtain ⟨fuel, rfl⟩ : ∃ less, fuel = less + 1 := ⟨fuel - 1, by omega⟩
        have hends : EndsValue ('\n' :: (List.replicate outer '\t' ++ '\x7d' :: rest)) := by
          rintro c ⟨⟩
          exact Or.inr (Or.inl rfl)
        rw [readMembers_printMember hname hvalue (by omega) depth hends, afterEntry]
        have hskip : skipBlanks ('\n' :: (List.replicate outer '\t' ++ '\x7d' :: rest)) =
            '\x7d' :: rest := by
          change skipBlanks (List.replicate outer '\t' ++ _) = _
          rw [skipBlanks_tabs, skipBlanks_of_visible (by decide)]
        rw [hskip]
        rfl
      · have hlength : (",\n".toList.intercalate
            (printMember depth member.1 valueText :: texts)).length =
            (printMember depth member.1 valueText).length +
              (2 + (",\n".toList.intercalate texts).length) := by
          rw [intercalate_cons hlater, List.length_append, List.length_append]
          rfl
        obtain ⟨fuel, rfl⟩ : ∃ less, fuel = less + 1 := ⟨fuel - 1, by omega⟩
        have hsplit : ∀ more, ",\n".toList.intercalate
            (printMember depth member.1 valueText :: texts) ++ more =
            printMember depth member.1 valueText ++
              (',' :: '\n' :: (",\n".toList.intercalate texts ++ more)) := by
          intro more
          rw [intercalate_cons hlater]
          simp
        have hends : ∀ more, EndsValue (',' :: more) := by
          rintro more c ⟨⟩
          exact Or.inl rfl
        rw [hsplit, readMembers_printMember hname hvalue (by omega) depth (hends _),
          afterEntry_comma]
        change (readMembers ofNumeral fuel (skipBlanks (",\n".toList.intercalate texts ++ _))).map
          _ = _
        rw [ih hlater (by omega)]
        rfl

/-! ## Every value -/

/-- A word that stands for a value. -/
theorem reads_word {word : CString} {value : Json α}
    (hstarts : ∃ c more, word = c :: more ∧ isBlank c = false ∧ c ≠ ']')
    (hreads : ∀ fuel rest, readValue ofNumeral (fuel + 1) (word ++ rest) = some (value, rest)) :
    Reads ofNumeral word value := by
  refine ⟨hstarts, fun fuel rest hfuel _ => ?_⟩
  obtain ⟨c, more, rfl, _⟩ := hstarts
  cases fuel with
  | zero => cases hfuel
  | succ fuel => exact hreads fuel rest

theorem reads_string {value : CString} (hvalue : nul ∉ value) :
    Reads ofNumeral ('"' :: (escapeString value ++ ['"'])) (.string value) := by
  refine ⟨⟨'"', _, rfl, by decide, by decide⟩, fun fuel rest hfuel _ => ?_⟩
  cases fuel with
  | zero => cases hfuel
  | succ fuel =>
      rw [List.cons_append, List.append_assoc, List.singleton_append, readValue,
        readString_escapeString hvalue]
      rfl

theorem reads_array {texts : List CString} {items : List (Json α)}
    (hreads : List.Forall₂ (Reads ofNumeral) texts items) :
    Reads ofNumeral ('[' :: (", ".toList.intercalate texts ++ [']'])) (.array items) := by
  refine ⟨⟨'[', _, rfl, by decide, by decide⟩, fun fuel rest hfuel _ => ?_⟩
  cases fuel with
  | zero => cases hfuel
  | succ fuel =>
      rw [List.cons_append, List.append_assoc, List.singleton_append]
      by_cases hempty : texts = []
      · subst hempty
        cases hreads
        rfl
      · have hlength : (", ".toList.intercalate texts).length < fuel := by
          rw [List.length_cons, List.length_append, List.length_singleton] at hfuel
          omega
        have hitems := readItems_intercalate hreads hempty hlength rest
        obtain ⟨c, more, hstart, hblank, hbracket⟩ :=
          intercalate_starts hreads hempty ", ".toList
        rw [hstart, List.cons_append] at hitems ⊢
        rw [readValue, skipBlanks_of_visible hblank]
        split
        next heq => exact absurd (List.cons.inj heq).1 hbracket
        next =>
          rw [hitems]
          rfl

theorem reads_object {depth : Nat} {texts : List CString} {members : List (CString × Json α)}
    (hreads : List.Forall₂ (ReadsMember ofNumeral (depth + 1)) texts members) :
    Reads ofNumeral ('\x7b' :: '\n' :: (",\n".toList.intercalate texts ++
      ((if members.isEmpty then [] else ['\n']) ++ (List.replicate depth '\t' ++ ['\x7d']))))
      (.object members) := by
  refine ⟨⟨'\x7b', _, rfl, by decide, by decide⟩, fun fuel rest hfuel _ => ?_⟩
  cases fuel with
  | zero => cases hfuel
  | succ fuel =>
      by_cases hempty : texts = []
      · subst hempty
        cases hreads
        have htext : '\x7b' :: '\n' :: (",\n".toList.intercalate [] ++
            ((if ([] : List (CString × Json α)).isEmpty then [] else ['\n']) ++
              (List.replicate depth '\t' ++ ['\x7d']))) ++ rest =
            '\x7b' :: '\n' :: (List.replicate depth '\t' ++ '\x7d' :: rest) := by
          simp [List.intercalate]
        have hskip : skipBlanks ('\n' :: (List.replicate depth '\t' ++ '\x7d' :: rest)) =
            '\x7d' :: rest := by
          change skipBlanks (List.replicate depth '\t' ++ _) = _
          rw [skipBlanks_tabs, skipBlanks_of_visible (by decide)]
        rw [htext, readValue, hskip]
        rfl
      · have hmembers : members.isEmpty = false := by
          cases hreads with
          | nil => exact absurd rfl hempty
          | cons => rfl
        have htext : '\x7b' :: '\n' :: (",\n".toList.intercalate texts ++
            ((if members.isEmpty then [] else ['\n']) ++
              (List.replicate depth '\t' ++ ['\x7d']))) ++ rest =
            '\x7b' :: '\n' :: (",\n".toList.intercalate texts ++
              '\n' :: (List.replicate depth '\t' ++ '\x7d' :: rest)) := by
          simp [hmembers]
        have hlength : (",\n".toList.intercalate texts).length ≤ fuel := by
          rw [List.length_cons, List.length_cons, List.length_append] at hfuel
          omega
        have hread := readMembers_intercalate hreads hempty hlength depth rest
        have hskip : ∀ more, skipBlanks ('\n' :: more) = skipBlanks more := fun _ => rfl
        rw [htext, readValue, hskip]
        split
        -- no member starts with the closing bracket
        next others heq =>
          rw [heq] at hread
          cases fuel <;> simp [readMembers] at hread
        next =>
          rw [hread]
          rfl

variable {printNumber : α → CString}

mutual

/-- What is printed of a value is read as the value. -/
theorem reads_printValue (hnumber : ∀ value, Reads ofNumeral (printNumber value) (.number value))
    (depth : Nat) {value : Json α} (hvalue : NoNul value) :
    Reads ofNumeral (printValue printNumber depth value) value := by
  cases value with
  | null => exact reads_word ⟨_, _, rfl, by decide, by decide⟩ fun _ _ => rfl
  | bool value =>
      cases value with
      | true => exact reads_word ⟨_, _, rfl, by decide, by decide⟩ fun _ _ => rfl
      | false => exact reads_word ⟨_, _, rfl, by decide, by decide⟩ fun _ _ => rfl
  | number value => exact hnumber value
  | string value => exact reads_string hvalue
  | array items => exact reads_array (reads_printItems hnumber depth hvalue)
  | object members =>
      exact reads_object (reads_printMembers hnumber (depth + 1) hvalue)

theorem reads_printItems (hnumber : ∀ value, Reads ofNumeral (printNumber value) (.number value))
    (depth : Nat) {items : List (Json α)} (hitems : NoNulItems items) :
    List.Forall₂ (Reads ofNumeral) (printItems printNumber depth items) items := by
  cases items with
  | nil => exact .nil
  | cons item rest =>
      exact .cons (reads_printValue hnumber (depth + 1) hitems.1)
        (reads_printItems hnumber depth hitems.2)

theorem reads_printMembers (hnumber : ∀ value, Reads ofNumeral (printNumber value) (.number value))
    (depth : Nat) {members : List (CString × Json α)} (hmembers : NoNulMembers members) :
    List.Forall₂ (ReadsMember ofNumeral depth) (printMembers printNumber depth members)
      members := by
  cases members with
  | nil => exact .nil
  | cons member rest =>
      obtain ⟨name, value⟩ := member
      exact .cons ⟨_, rfl, hmembers.1, reads_printValue hnumber depth hmembers.2.1⟩
        (reads_printMembers hnumber depth hmembers.2.2)

end

/-- Printing and parsing. -/
theorem parse_print (hnumber : ∀ value, Reads ofNumeral (printNumber value) (.number value))
    {value : Json α} (hvalue : NoNul value) :
    parse ofNumeral (print printNumber value) = some value := by
  have hreads := reads_printValue hnumber 0 hvalue
  obtain ⟨c, more, hstart, hblank, _⟩ := hreads.starts
  have hread := hreads.reads ((print printNumber value).length + 1) [] (Nat.le_succ _)
    (by rintro c ⟨⟩)
  rw [List.append_nil] at hread
  rw [parse]
  have hskip : skipBlanks (print printNumber value) = print printNumber value := by
    rw [print, hstart]
    exact skipBlanks_of_visible hblank more
  rw [hskip, ← print] at *
  rw [hread]
  rfl

/-! ## Printing C strings -/

/-- No character of a string is printed as NUL. -/
theorem nul_notMem_escapeString (text : CString) : nul ∉ escapeString text := by
  have hdigit : ∀ n < 16, nul ≠ n.digitChar := by decide
  intro hmem
  obtain ⟨c, -, hc⟩ := List.mem_flatMap.mp hmem
  unfold escapeChar at hc
  split_ifs at hc with hquote hplain
  · simp only [List.mem_cons, List.not_mem_nil, or_false] at hc
    rcases hc with hc | rfl
    · exact absurd hc (by decide)
    · exact absurd hquote (by decide)
  · rw [← List.mem_singleton.mp hc] at hplain
    exact absurd hplain (by decide)
  · have hcontrol := control_of_not_plain hquote hplain
    simp only [List.mem_cons, List.not_mem_nil, or_false] at hc
    rcases hc with hc | hc | hc | hc | hc | hc
    · exact absurd hc (by decide)
    · exact absurd hc (by decide)
    · exact absurd hc (by decide)
    · exact absurd hc (by decide)
    · exact hdigit _ (by omega) hc
    · exact hdigit _ (by omega) hc

theorem nul_notMem_intercalate {separator : CString} (hseparator : nul ∉ separator)
    {texts : List CString} (htexts : ∀ text ∈ texts, nul ∉ text) :
    nul ∉ separator.intercalate texts := by
  induction texts with
  | nil => exact List.not_mem_nil
  | cons text rest ih =>
      obtain ⟨hfirst, hrest⟩ := List.forall_mem_cons.mp htexts
      by_cases hempty : rest = []
      · subst hempty
        simpa [List.intercalate] using hfirst
      · rw [intercalate_cons hempty]
        simp only [List.mem_append, not_or]
        exact ⟨hfirst, hseparator, ih hrest⟩

mutual

/-- The text of a value is a C string when the texts of numbers are. -/
theorem nul_notMem_printValue (hnumber : ∀ value, nul ∉ printNumber value) (depth : Nat)
    (value : Json α) : nul ∉ printValue printNumber depth value := by
  have htabs : ∀ count, nul ∉ List.replicate count '\t' := fun count hmem =>
    absurd (List.eq_of_mem_replicate hmem) (by decide)
  cases value with
  | null => exact (by decide : nul ∉ "null".toList)
  | bool value => cases value with
    | true => exact (by decide : nul ∉ "true".toList)
    | false => exact (by decide : nul ∉ "false".toList)
  | number value => exact hnumber value
  | string value =>
      simp only [printValue, List.mem_append, List.mem_cons, not_or]
      exact ⟨by decide, nul_notMem_escapeString value, by decide, List.not_mem_nil⟩
  | array items =>
      have hitems : nul ∉ ", ".toList.intercalate (printItems printNumber depth items) :=
        nul_notMem_intercalate (by decide) (nul_notMem_printItems hnumber depth items)
      simp only [printValue, List.mem_append, List.mem_cons, not_or]
      exact ⟨by decide, hitems, by decide, List.not_mem_nil⟩
  | object members =>
      have hmembers :
          nul ∉ ",\n".toList.intercalate (printMembers printNumber (depth + 1) members) :=
        nul_notMem_intercalate (by decide) (nul_notMem_printMembers hnumber (depth + 1) members)
      have hline : nul ∉ if members.isEmpty then [] else ['\n'] := by
        split_ifs <;> decide
      simp only [printValue, List.mem_append, List.mem_cons, not_or]
      exact ⟨by decide, by decide, hmembers, hline, htabs depth, by decide, List.not_mem_nil⟩

theorem nul_notMem_printItems (hnumber : ∀ value, nul ∉ printNumber value) (depth : Nat)
    (items : List (Json α)) : ∀ text ∈ printItems printNumber depth items, nul ∉ text := by
  cases items with
  | nil => exact fun _ hmem => absurd hmem List.not_mem_nil
  | cons item rest =>
      exact List.forall_mem_cons.mpr ⟨nul_notMem_printValue hnumber (depth + 1) item,
        nul_notMem_printItems hnumber depth rest⟩

theorem nul_notMem_printMembers (hnumber : ∀ value, nul ∉ printNumber value) (depth : Nat)
    (members : List (CString × Json α)) :
    ∀ text ∈ printMembers printNumber depth members, nul ∉ text := by
  have htabs : ∀ count, nul ∉ List.replicate count '\t' := fun count hmem =>
    absurd (List.eq_of_mem_replicate hmem) (by decide)
  cases members with
  | nil => exact fun _ hmem => absurd hmem List.not_mem_nil
  | cons member rest =>
      obtain ⟨name, value⟩ := member
      refine List.forall_mem_cons.mpr ⟨?_, nul_notMem_printMembers hnumber depth rest⟩
      simp only [printMember, List.mem_append, List.mem_cons, not_or]
      exact ⟨htabs depth, by decide, nul_notMem_escapeString name, by decide, by decide,
        by decide, nul_notMem_printValue hnumber depth value⟩

end

end Reading

end JsonText

end QuantTrading
