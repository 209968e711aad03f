import QuantTrading.Protocol.JsonText

/-! # JSON from format strings

Texts that are put together line by line, as with `snprintf`: an object with one member
on each line. Whatever the values are, the text of an object is read as the members it
was written from exactly when each value is.
-/

namespace QuantTrading

namespace JsonText

/-- A member of an object on a line of its own. -/
structure Line where
  name : String
  padding : Nat
  text : CString

/-- The line behind an indentation. -/
def Line.print (indent : Nat) (line : Line) : CString :=
  List.replicate indent ' ' ++ '"' :: (line.name.toList ++ '"' :: ':' ::
    (List.replicate line.padding ' ' ++ line.text))

/-- Lines with commas between them. -/
def printLines (indent : Nat) : List Line → CString
  | [] => []
  | [line] => line.print indent
  | line :: rest => line.print indent ++ ',' :: '\n' :: printLines indent rest

/-- An object with its members on the lines between its brackets. -/
def printObject (indent : Nat) (lines : List Line) : CString :=
  '\x7b' :: '\n' :: (printLines (indent + 4) lines ++
    '\n' :: (List.replicate indent ' ' ++ ['\x7d']))

/-- A string in quotes. -/
def quoted (text : CString) : CString :=
  '"' :: (text ++ ['"'])

/-! ## Blanks -/

theorem skipBlanks_of_visible {c : Char} (hc : isBlank c = false) (rest : CString) :
    skipBlanks (c :: rest) = c :: rest := by
  rw [skipBlanks, List.dropWhile_cons_of_neg]
  simp [hc]

theorem skipBlanks_replicate (count : Nat) (rest : CString) :
    skipBlanks (List.replicate count ' ' ++ rest) = skipBlanks rest := by
  induction count with
  | zero => rfl
  | succ count ih =>
      rw [List.replicate_succ, List.cons_append, ← ih]
      rfl

/-- A text that does not start with a blank. -/
def Visible (text : CString) : Prop :=
  ∃ c more, text = c :: more ∧ isBlank c = false

theorem Visible.skipBlanks {text : CString} (hvisible : Visible text) (rest : CString) :
    JsonText.skipBlanks (text ++ rest) = text ++ rest := by
  obtain ⟨c, more, rfl, hc⟩ := hvisible
  exact skipBlanks_of_visible hc (more ++ rest)

/-! ## Values in a form -/

/-- What follows a value in a form: the end of the line. -/
def EndsLine (rest : CString) : Prop :=
  ∃ more, rest = '\n' :: more ∨ rest = ',' :: '\n' :: more

variable {α : Type} {ofNumeral : CString → α}

/-- A line with the value it is meant to have, and the condition under which it has it. -/
structure FormField (α : Type) where
  line : Line
  value : Json α
  fits : Prop

/-- The member that a line is meant to be. -/
def FormField.member (field : FormField α) : CString × Json α :=
  (field.line.name.toList, field.value)

/-- A line is read as its member exactly under its condition, with enough fuel. -/
structure FormField.Exact (ofNumeral : CString → α) (fuel : Nat) (field : FormField α) : Prop where
  name : PlainText field.line.name.toList
  visible : Visible field.line.text
  reads : ∀ {more rest after}, fuel ≤ more → EndsLine rest →
    (readValue ofNumeral more (field.line.text ++ rest) = some (field.value, after) ↔
      field.fits ∧ after = rest)

/-! ## Entries -/

theorem afterEntry_comma {Entry : Type} (closing : Char)
    (more : CString → Option (List Entry × CString)) (entry : Entry) (text : CString) :
    afterEntry closing more entry (',' :: text) =
      (more (skipBlanks text)).map fun read => (entry :: read.1, read.2) := rfl

/-- The bracket on the next line ends the entries. -/
theorem afterEntry_closing {Entry : Type} (more : CString → Option (List Entry × CString))
    (entry : Entry) (indent : Nat) (rest : CString) :
    afterEntry '\x7d' more entry ('\n' :: (List.replicate indent ' ' ++ '\x7d' :: rest)) =
      some ([entry], rest) := by
  have hskip : skipBlanks ('\n' :: (List.replicate indent ' ' ++ '\x7d' :: rest)) =
      '\x7d' :: rest := by
    change skipBlanks (List.replicate indent ' ' ++ '\x7d' :: rest) = _
    rw [skipBlanks_replicate, skipBlanks_of_visible (by decide)]
  rw [afterEntry, hskip]
  rfl

/-- An entry comes before those that follow it. -/
theorem afterEntry_head {Entry : Type} {closing : Char}
    {more : CString → Option (List Entry × CString)} {entry first : Entry} {text after : CString}
    {others : List Entry}
    (hread : afterEntry closing more entry text = some (first :: others, after)) :
    first = entry := by
  unfold afterEntry at hread
  split at hread
  · cases hread
  · split_ifs at hread
    · obtain ⟨_, _, heq⟩ := Option.map_eq_some_iff.mp hread
      cases heq
      rfl
    · cases hread
      rfl

/-- The name of a line is read as it is. -/
theorem readMembers_line {line : Line} (hname : PlainText line.name.toList)
    (hvisible : Visible line.text) (indent fuel : Nat) (rest : CString) :
    readMembers ofNumeral (fuel + 1) (skipBlanks (line.print indent ++ rest)) =
      (readValue ofNumeral fuel (line.text ++ rest)).bind fun read =>
        afterEntry '\x7d' (readMembers ofNumeral fuel) (line.name.toList, read.1) read.2 := by
  have hstart : skipBlanks (line.print indent ++ rest) = '"' :: (line.name.toList ++
      '"' :: (':' :: (List.replicate line.padding ' ' ++ (line.text ++ rest)))) := by
    rw [Line.print, List.append_assoc, skipBlanks_replicate, List.cons_append,
      skipBlanks_of_visible (by decide)]
    simp only [List.append_assoc, List.cons_append]
  have hvalue : skipBlanks (List.replicate line.padding ' ' ++ (line.text ++ rest)) =
      line.text ++ rest := by
    rw [skipBlanks_replicate, hvisible.skipBlanks]
  rw [hstart, readMembers, readString_of_plain hname]
  change (readValue ofNumeral fuel (skipBlanks _)).bind _ = _
  rw [hvalue]

theorem readMembers_line_iff {fuel : Nat} {field : FormField α}
    (hexact : field.Exact ofNumeral fuel) (indent : Nat) {more : Nat} (hmore : fuel ≤ more)
    {rest after : CString} (hrest : EndsLine rest) {others : List (CString × Json α)} :
    readMembers ofNumeral (more + 1) (skipBlanks (field.line.print indent ++ rest)) =
        some (field.member :: others, after) ↔
      field.fits ∧ afterEntry '\x7d' (readMembers ofNumeral more) field.member rest =
        some (field.member :: others, after) := by
  rw [readMembers_line hexact.name hexact.visible]
  constructor
  · intro hread
    obtain ⟨⟨value, rest'⟩, hvalue, hafter⟩ := Option.bind_eq_some_iff.mp hread
    obtain rfl : field.value = value := (Prod.mk.inj (afterEntry_head hafter)).2
    obtain ⟨hfits, rfl⟩ := (hexact.reads hmore hrest).mp hvalue
    exact ⟨hfits, hafter⟩
  · rintro ⟨hfits, hafter⟩
    rw [(hexact.reads hmore hrest).mpr ⟨hfits, rfl⟩]
    exact hafter

theorem printLines_cons (indent : Nat) (line : Line) {rest : List Line} (hne : rest ≠ []) :
    printLines indent (line :: rest) =
      line.print indent ++ ',' :: '\n' :: printLines indent rest := by
  cases rest with
  | nil => exact absurd rfl hne
  | cons next rest => rfl

/-- The first line starts with the quote before its name. -/
theorem skipBlanks_printLines (indent : Nat) {lines : List Line} (hne : lines ≠ [])
    (rest : CString) : ∃ tail, skipBlanks (printLines indent lines ++ rest) = '"' :: tail := by
  have hline : ∀ (line : Line) (more : CString),
      ∃ tail, skipBlanks (line.print indent ++ more) = '"' :: tail := by
    intro line more
    rw [Line.print, List.append_assoc, skipBlanks_replicate, List.cons_append,
      skipBlanks_of_visible (by decide)]
    exact ⟨_, rfl⟩
  cases lines with
  | nil => exact absurd rfl hne
  | cons line others =>
      rcases eq_or_ne others [] with rfl | hothers
      · exact hline line rest
      · rw [printLines_cons indent line hothers, List.append_assoc]
        exact hline line _

/-- Lines are read as their members exactly when each is read as its own. -/
theorem readMembers_printLines_iff {fuel : Nat} {fields : List (FormField α)} (hne : fields ≠ [])
    (hexact : ∀ field ∈ fields, field.Exact ofNumeral fuel) (inner outer : Nat) {more : Nat}
    (hmore : fuel + fields.length ≤ more) (rest after : CString) :
    readMembers ofNumeral more (skipBlanks (printLines inner (fields.map FormField.line) ++
        '\n' :: (List.replicate outer ' ' ++ '\x7d' :: rest))) =
        some (fields.map FormField.member, after) ↔
      (∀ field ∈ fields, field.fits) ∧ after = rest := by
  induction fields generalizing more with
  | nil => exact absurd rfl hne
  | cons field fields ih =>
      obtain ⟨hfield, hfields⟩ := List.forall_mem_cons.mp hexact
      obtain ⟨more, rfl⟩ : ∃ less, more = less + 1 := ⟨more - 1, by
        rw [List.length_cons] at hmore
        omega⟩
      rw [List.length_cons] at hmore
      have hfuel : fuel ≤ more := by omega
      rcases eq_or_ne fields [] with rfl | hlater
      -- the last line is followed by the bracket
      · have hends : EndsLine ('\n' :: (List.replicate outer ' ' ++ '\x7d' :: rest)) :=
          ⟨_, Or.inl rfl⟩
        simp only [List.map_cons, List.map_nil, printLines]
        rw [readMembers_line_iff hfield inner hfuel hends, afterEntry_closing]
        simp [eq_comm]
      -- the other lines by a comma and the next line
      · have hrest := ih hlater hfields (show fuel + fields.length ≤ more by omega)
        have hends : EndsLine (',' :: '\n' :: (printLines inner (fields.map FormField.line) ++
            '\n' :: (List.replicate outer ' ' ++ '\x7d' :: rest))) := ⟨_, Or.inr rfl⟩
        rw [List.map_cons, List.map_cons, printLines_cons inner _ (by simpa using hlater),
          List.append_assoc, List.cons_append, List.cons_append,
          readMembers_line_iff hfield inner hfuel hends, afterEntry_comma,
          List.forall_mem_cons, and_assoc, ← hrest]
        apply and_congr_right
        intro _
        rw [Option.map_eq_some_iff]
        constructor
        · rintro ⟨⟨members, after'⟩, hread, heq⟩
          cases heq
          exact hread
        · intro hread
          exact ⟨_, hread, rfl⟩

/-- An object in a form is read as its members exactly when each line is. -/
theorem readValue_printObject_iff {fuel : Nat} {fields : List (FormField α)} (hne : fields ≠ [])
    (hexact : ∀ field ∈ fields, field.Exact ofNumeral fuel) (indent : Nat) {more : Nat}
    (hmore : fuel + fields.length + 1 ≤ more) (rest after : CString) :
    readValue ofNumeral more (printObject indent (fields.map FormField.line) ++ rest) =
        some (.object (fields.map FormField.member), after) ↔
      (∀ field ∈ fields, field.fits) ∧ after = rest := by
  obtain ⟨more, rfl⟩ : ∃ less, more = less + 1 := ⟨more - 1, by omega⟩
  rw [← readMembers_printLines_iff hne hexact (indent + 4) indent
    (show fuel + fields.length ≤ more by omega) rest after]
  have hlines : fields.map FormField.line ≠ [] := by simpa using hne
  obtain ⟨tail, hstart⟩ := skipBlanks_printLines (indent + 4) hlines
    ('\n' :: (List.replicate indent ' ' ++ '\x7d' :: rest))
  have htext : printObject indent (fields.map FormField.line) ++ rest =
      '\x7b' :: ('\n' :: (printLines (indent + 4) (fields.map FormField.line) ++
        '\n' :: (List.replicate indent ' ' ++ '\x7d' :: rest))) := by
    simp [printObject]
  have hskip : skipBlanks ('\n' :: (printLines (indent + 4) (fields.map FormField.line) ++
      '\n' :: (List.replicate indent ' ' ++ '\x7d' :: rest))) = '"' :: tail := hstart
  rw [htext, readValue, hskip, hstart]
  change (readMembers ofNumeral more ('"' :: tail)).map _ = _ ↔ _
  rw [Option.map_eq_some_iff]
  constructor
  · rintro ⟨⟨members, after'⟩, hread, heq⟩
    cases heq
    exact hread
  · intro hread
    exact ⟨_, hread, rfl⟩

/-! ## Strings and numerals in a form -/

theorem cutString_of_endsLine {rest : CString} (hrest : EndsLine rest) :
    cutString rest = none := by
  obtain ⟨more, rfl | rfl⟩ := hrest
  · rfl
  · rfl

/-- A line with a string in quotes, of which at most `count` characters are written. -/
def FormField.string (name : String) (padding count : Nat) (given : CString) : FormField α where
  line := ⟨name, padding, quoted (given.take count)⟩
  value := .string given
  fits := given.length ≤ count ∧ PlainText given

theorem FormField.string_exact {name : String} (hname : PlainText name.toList)
    (padding count : Nat) (given : CString) :
    (FormField.string name padding count given : FormField α).Exact ofNumeral 1 where
  name := hname
  visible := ⟨'"', _, rfl, by decide⟩
  reads := by
    intro more rest after hmore hrest
    obtain ⟨more, rfl⟩ : ∃ less, more = less + 1 := ⟨more - 1, by omega⟩
    have htext : quoted (given.take count) ++ rest = '"' :: (given.take count ++ '"' :: rest) := by
      simp [quoted]
    simp only [FormField.string]
    rw [htext, readValue, ← readString_take_iff (cutString_of_endsLine hrest),
      Option.map_eq_some_iff]
    constructor
    · rintro ⟨⟨value, after'⟩, hread, heq⟩
      cases heq
      exact hread
    · intro hread
      exact ⟨_, hread, rfl⟩

/-- The first character of a numeral. -/
def startsNumeral (c : Char) : Bool :=
  c.isDigit || c = '-'

/-- A value that starts as a numeral is one. -/
theorem readValue_of_numeral {c : Char} (hc : startsNumeral c = true) (fuel : Nat)
    (rest : CString) :
    readValue ofNumeral (fuel + 1) (c :: rest) =
      (readNumeral (c :: rest)).map fun read => (.number (ofNumeral read.1), read.2) := by
  have hne : ∀ d, startsNumeral d = false → c ≠ d := by
    rintro d hd rfl
    rw [hc] at hd
    cases hd
  have hstart : ∀ d, startsNumeral d = false → ∀ more, c :: rest = d :: more → False :=
    fun d hd _ heq => hne d hd (List.cons.inj heq).1
  have hscalar : readValue ofNumeral (fuel + 1) (c :: rest) = readScalar ofNumeral (c :: rest) := by
    rw [readValue]
    · exact hstart '"' (by decide)
    · exact hstart '\x7b' (by decide)
    · exact hstart '[' (by decide)
  have hword : (readWord (c :: rest) : Option (Json α × CString)) = none := by
    have ht : 't' ≠ c := (hne 't' (by decide)).symm
    have hf : 'f' ≠ c := (hne 'f' (by decide)).symm
    have hn : 'n' ≠ c := (hne 'n' (by decide)).symm
    simp [readWord, ht, hf, hn]
  rw [hscalar, readScalar, hword]

/-- A number other than zero has no leading zero. -/
theorem head?_toDigits_ne {n : Nat} (hn : n ≠ 0) : (Nat.toDigits 10 n).head? ≠ some '0' := by
  induction n using Nat.strong_induction_on with
  | _ n ih =>
      rcases Nat.lt_or_ge n 10 with hlt | hge
      · rw [Nat.toDigits_of_lt_base hlt]
        simp [hn]
      · have hless := ih (n / 10) (by omega) (by omega)
        rw [Nat.toDigits_of_base_le (by decide) hge]
        cases hdigits : Nat.toDigits 10 (n / 10) with
        | nil => exact absurd hdigits Nat.toDigits_ne_nil
        | cons c rest =>
            rw [hdigits] at hless
            exact hless

/-- The digits of a number are read up to what follows them. -/
theorem readMagnitude_toDigits (n : Nat) {rest : CString}
    (hrest : ∀ c ∈ rest.head?, c.isDigit = false) :
    readMagnitude (Nat.toDigits 10 n ++ rest) = (readFraction rest).bind fun fraction =>
      (readExponent fraction.2).bind fun exponent =>
        some (Nat.toDigits 10 n ++ fraction.1 ++ exponent.1, exponent.2) := by
  have hdigits : ∀ c ∈ Nat.toDigits 10 n, c.isDigit = true := fun c hc =>
    Nat.isDigit_of_mem_toDigits (by decide) (by decide) hc
  have htake : (Nat.toDigits 10 n ++ rest).takeWhile Char.isDigit = Nat.toDigits 10 n := by
    rw [List.takeWhile_append_of_pos hdigits]
    cases rest with
    | nil => simp
    | cons c rest => simp [hrest c rfl]
  have hdrop : (Nat.toDigits 10 n ++ rest).dropWhile Char.isDigit = rest := by
    rw [List.dropWhile_append_of_pos hdigits]
    cases rest with
    | nil => rfl
    | cons c rest => simp [hrest c rfl]
  have hwhole : ¬ (Nat.toDigits 10 n = [] ∨ (Nat.toDigits 10 n).head? = some '0' ∧
      (Nat.toDigits 10 n).length ≠ 1) := by
    rintro (hnil | ⟨hzero, hlength⟩)
    · exact Nat.toDigits_ne_nil hnil
    · rcases eq_or_ne n 0 with rfl | hn
      · exact hlength rfl
      · exact head?_toDigits_ne hn hzero
  rw [readMagnitude, htake, hdrop]
  exact if_neg hwhole

theorem readFraction_of_endsLine {rest : CString} (hrest : EndsLine rest) :
    readFraction rest = some ([], rest) := by
  obtain ⟨more, rfl | rfl⟩ := hrest
  · rfl
  · rfl

theorem readExponent_of_endsLine {rest : CString} (hrest : EndsLine rest) :
    readExponent rest = some ([], rest) := by
  obtain ⟨more, rfl | rfl⟩ := hrest
  · rfl
  · rfl

theorem noDigit_of_endsLine {rest : CString} (hrest : EndsLine rest) :
    ∀ c ∈ rest.head?, c.isDigit = false := by
  obtain ⟨more, rfl | rfl⟩ := hrest
  · rintro c ⟨⟩
    rfl
  · rintro c ⟨⟩
    rfl

/-- The sign of a number is read before its digits. -/
theorem readNumeral_of_magnitude {digits text rest : CString} (hdigits : digits ≠ [])
    (hall : ∀ c ∈ digits, c.isDigit = true) (htext : digits <+: text)
    (hread : readMagnitude (text ++ rest) = some (text, rest)) (negative : Bool) :
    readNumeral ((if negative then ['-'] else []) ++ text ++ rest) =
      some ((if negative then ['-'] else []) ++ text, rest) := by
  cases negative with
  | true =>
      change (readMagnitude (text ++ rest)).map _ = _
      rw [hread]
      rfl
  | false =>
      obtain ⟨more, rfl⟩ := htext
      cases digits with
      | nil => exact absurd rfl hdigits
      | cons c digits =>
          have hminus : c ≠ '-' := by
            rintro rfl
            exact absurd (hall '-' List.mem_cons_self) (by decide)
          simp only [Bool.false_eq_true, if_false, List.nil_append, List.cons_append] at hread ⊢
          rw [readNumeral]
          · exact hread
          · exact fun _ heq => hminus (List.cons.inj heq).1

/-- More fuel does not change how a line is read. -/
theorem FormField.Exact.mono {fuel more : Nat} {field : FormField α}
    (hexact : field.Exact ofNumeral fuel) (hle : fuel ≤ more) : field.Exact ofNumeral more :=
  ⟨hexact.name, hexact.visible, fun hmore hrest => hexact.reads (hle.trans hmore) hrest⟩

/-- A line with a string that is written as a whole. -/
def FormField.whole (name : String) (padding : Nat) (given : CString) : FormField α where
  line := ⟨name, padding, quoted given⟩
  value := .string given
  fits := PlainText given

theorem FormField.whole_exact {name : String} (hname : PlainText name.toList)
    (padding : Nat) (given : CString) :
    (FormField.whole name padding given : FormField α).Exact ofNumeral 1 := by
  have hexact : (FormField.string name padding given.length given : FormField α).Exact
      ofNumeral 1 := FormField.string_exact hname padding given.length given
  have hline := hexact.visible
  have hreads := @hexact.reads
  simp only [FormField.string, List.take_length, le_refl, true_and] at hline hreads
  exact ⟨hname, hline, hreads⟩

/-- A line with a number, whose text is a numeral or cannot be read at all. -/
def FormField.number (ofNumeral : CString → α) (name : String) (padding : Nat) (text : CString)
    (isNumeral : Prop) (value : α) : FormField α where
  line := ⟨name, padding, text⟩
  value := .number value
  fits := isNumeral ∧ value = ofNumeral text

theorem FormField.number_exact {name : String} (hname : PlainText name.toList)
    (padding : Nat) {text : CString} (hvisible : Visible text) {isNumeral : Prop}
    (hnumeral : isNumeral → ∀ fuel rest, EndsLine rest →
      readValue ofNumeral (fuel + 1) (text ++ rest) = some (.number (ofNumeral text), rest))
    (hnone : ¬ isNumeral → ∀ fuel rest, readValue ofNumeral (fuel + 1) (text ++ rest) = none)
    (value : α) :
    (FormField.number ofNumeral name padding text isNumeral value).Exact ofNumeral 1 where
  name := hname
  visible := hvisible
  reads := by
    intro more rest after hmore hrest
    obtain ⟨more, rfl⟩ : ∃ less, more = less + 1 := ⟨more - 1, by omega⟩
    simp only [FormField.number]
    by_cases hcases : isNumeral
    · rw [hnumeral hcases more rest hrest]
      constructor
      · intro heq
        cases heq
        exact ⟨⟨hcases, rfl⟩, rfl⟩
      · rintro ⟨⟨-, rfl⟩, rfl⟩
        rfl
    · rw [hnone hcases more rest]
      constructor
      · intro heq
        cases heq
      · rintro ⟨⟨hreads, -⟩, -⟩
        exact absurd hreads hcases

/-- A line with an object. -/
def FormField.object (name : String) (padding indent : Nat) (fields : List (FormField α)) :
    FormField α where
  line := ⟨name, padding, printObject indent (fields.map FormField.line)⟩
  value := .object (fields.map FormField.member)
  fits := ∀ field ∈ fields, field.fits

theorem FormField.object_exact {name : String} (hname : PlainText name.toList)
    (padding indent : Nat) {fuel : Nat} {fields : List (FormField α)} (hne : fields ≠ [])
    (hexact : ∀ field ∈ fields, field.Exact ofNumeral fuel) :
    (FormField.object name padding indent fields).Exact ofNumeral (fuel + fields.length + 1) where
  name := hname
  visible := ⟨'\x7b', _, rfl, by decide⟩
  reads := fun hmore _ => readValue_printObject_iff hne hexact indent hmore _ _

/-- The text of an object is parsed into its members exactly when each line is. -/
theorem parse_printObject_iff {fuel : Nat} {fields : List (FormField α)} (hne : fields ≠ [])
    (hexact : ∀ field ∈ fields, field.Exact ofNumeral fuel)
    (hfuel : fuel + fields.length ≤ (printObject 0 (fields.map FormField.line)).length) :
    parse ofNumeral (printObject 0 (fields.map FormField.line)) =
        some (.object (fields.map FormField.member)) ↔ ∀ field ∈ fields, field.fits := by
  have hread := readValue_printObject_iff hne hexact 0 (Nat.succ_le_succ hfuel) []
  have hskip : skipBlanks (printObject 0 (fields.map FormField.line)) =
      printObject 0 (fields.map FormField.line) := skipBlanks_of_visible (by decide) _
  rw [List.append_nil] at hread
  rw [parse, hskip]
  constructor
  · intro hparse
    obtain ⟨⟨value, rest⟩, hvalue, hend⟩ := Option.bind_eq_some_iff.mp hparse
    dsimp only at hend
    split_ifs at hend
    cases hend
    exact ((hread rest).mp hvalue).1
  · intro hfits
    rw [(hread []).mpr ⟨hfits, rfl⟩]
    rfl

end JsonText

end QuantTrading
