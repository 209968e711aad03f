import QuantTrading.Protocol.Json

/-! # JSON texts

The grammar of JSON as a reader. A string is first cut out up to its closing quote and
then decoded. What a numeral stands for is a parameter. A string in which NUL is escaped
has no value, as no C string holds it.
-/

namespace QuantTrading

namespace JsonText

/-! ## Blanks and strings -/

/-- The blanks between tokens. -/
def isBlank (c : Char) : Bool :=
  c = ' ' || c = '\t' || c = '\n' || c = '\r'

def skipBlanks (text : CString) : CString :=
  text.dropWhile isBlank

/-- A character that stands for itself in a string. -/
def isPlain (c : Char) : Bool :=
  c ≠ '"' && c ≠ '\\' && ' ' ≤ c

/-- A text in which every character stands for itself in a string. -/
def PlainText (text : CString) : Prop :=
  ∀ c ∈ text, isPlain c = true

instance (text : CString) : Decidable (PlainText text) :=
  List.decidableBAll _ text

/-- A string up to its closing quote, and the rest. A character after a backslash is not
looked at. -/
def cutString : CString → Option (CString × CString)
  | [] => none
  | '"' :: rest => some ([], rest)
  | '\\' :: c :: rest => (cutString rest).map fun cut => ('\\' :: c :: cut.1, cut.2)
  | c :: rest =>
      if isPlain c then (cutString rest).map fun cut => (c :: cut.1, cut.2) else none

/-- The value of a hexadecimal digit. -/
def hexValue (c : Char) : Option Nat :=
  if c.isDigit then some (c.toNat - '0'.toNat)
  else if 'a' ≤ c.toLower ∧ c.toLower ≤ 'f' then some (c.toLower.toNat - 'a'.toNat + 10)
  else none

/-- The number of four hexadecimal digits. -/
def codeUnit (a b c d : Char) : Option Nat := do
  let a ← hexValue a
  let b ← hexValue b
  let c ← hexValue c
  let d ← hexValue d
  some (((a * 16 + b) * 16 + c) * 16 + d)

/-- The character of a number, which is neither NUL nor a surrogate. -/
def character (code : Nat) : Option Char :=
  if code ≠ 0 ∧ code.isValidChar then some (Char.ofNat code) else none

/-- The character of a high and a low surrogate. -/
def surrogatePair (high low : Nat) : Option Char :=
  if 0xD800 ≤ high ∧ high < 0xDC00 ∧ 0xDC00 ≤ low ∧ low < 0xE000 then
    character (0x10000 + (high - 0xD800) * 0x400 + (low - 0xDC00))
  else none

/-- The character of a short escape. -/
def shortEscape : Char → Option Char
  | '"' => some '"'
  | '\\' => some '\\'
  | '/' => some '/'
  | 'b' => some '\x08'
  | 'f' => some '\x0c'
  | 'n' => some '\n'
  | 'r' => some '\r'
  | 't' => some '\t'
  | _ => none

/-- The number of an escape `u`, which follows a backslash, and the rest. -/
def unicodeEscape : CString → Option (Nat × CString)
  | 'u' :: a :: b :: c :: d :: rest => (codeUnit a b c d).map fun code => (code, rest)
  | _ => none

/-- The escape that follows a backslash, and the rest. -/
def readEscape (text : CString) : Option (Char × CString) :=
  match unicodeEscape text with
  | some (code, rest) =>
      match character code, rest with
      | some c, rest => some (c, rest)
      | none, '\\' :: rest => do
          let (low, rest) ← unicodeEscape rest
          let c ← surrogatePair code low
          some (c, rest)
      | none, _ => none
  | none =>
      match text with
      | c :: rest => (shortEscape c).map fun c => (c, rest)
      | [] => none

/-- The value of a string that was cut out. -/
def decodeString : Nat → CString → Option CString
  | _, [] => some []
  | 0, _ :: _ => none
  | fuel + 1, '\\' :: rest => do
      let (c, rest) ← readEscape rest
      let value ← decodeString fuel rest
      some (c :: value)
  | fuel + 1, c :: rest => (decodeString fuel rest).map fun value => c :: value

/-- A string after its opening quote, and the rest. -/
def readString (text : CString) : Option (CString × CString) := do
  let (body, rest) ← cutString text
  let value ← decodeString body.length body
  some (value, rest)

/-! ## Numerals -/

/-- The fraction of a numeral, and the rest. A point needs a digit. -/
def readFraction : CString → Option (CString × CString)
  | '.' :: rest =>
      let digits := rest.takeWhile Char.isDigit
      if digits = [] then none else some ('.' :: digits, rest.dropWhile Char.isDigit)
  | text => some ([], text)

/-- The exponent of a numeral, and the rest. -/
def readExponent : CString → Option (CString × CString)
  | c :: rest =>
      if c = 'e' ∨ c = 'E' then
        let sign := (rest.take 1).filter fun c => c = '+' || c = '-'
        let rest := rest.drop sign.length
        let digits := rest.takeWhile Char.isDigit
        if digits = [] then none
        else some (c :: sign ++ digits, rest.dropWhile Char.isDigit)
      else some ([], c :: rest)
  | [] => some ([], [])

/-- A numeral without its minus. The integer part has no leading zero. -/
def readMagnitude (text : CString) : Option (CString × CString) :=
  let whole := text.takeWhile Char.isDigit
  if whole = [] ∨ (whole.head? = some '0' ∧ whole.length ≠ 1) then none
  else do
    let (fraction, rest) ← readFraction (text.dropWhile Char.isDigit)
    let (exponent, rest) ← readExponent rest
    some (whole ++ fraction ++ exponent, rest)

/-- A numeral, and the rest. -/
def readNumeral : CString → Option (CString × CString)
  | '-' :: rest => (readMagnitude rest).map fun read => ('-' :: read.1, read.2)
  | text => readMagnitude text

/-! ## Values -/

section Values

variable {α : Type} (ofNumeral : CString → α)

/-- One of the three words, and the rest. -/
def readWord (text : CString) : Option (Json α × CString) :=
  if "true".toList.isPrefixOf text then some (.bool true, text.drop 4)
  else if "false".toList.isPrefixOf text then some (.bool false, text.drop 5)
  else if "null".toList.isPrefixOf text then some (.null, text.drop 4)
  else none

/-- A value that is no string, object or array. -/
def readScalar (text : CString) : Option (Json α × CString) :=
  match readWord text with
  | some read => some read
  | none => (readNumeral text).map fun read => (.number (ofNumeral read.1), read.2)

/-- What follows an entry: a comma and more entries, or the closing bracket. -/
def afterEntry {Entry : Type} (closing : Char) (more : CString → Option (List Entry × CString))
    (entry : Entry) (text : CString) : Option (List Entry × CString) :=
  match skipBlanks text with
  | [] => none
  | c :: rest =>
      if c = ',' then (more (skipBlanks rest)).map fun read => (entry :: read.1, read.2)
      else if c = closing then some ([entry], rest)
      else none

mutual

/-- A value, and the rest. -/
def readValue : Nat → CString → Option (Json α × CString)
  | 0, _ => none
  | _ + 1, '"' :: rest => (readString rest).map fun read => (.string read.1, read.2)
  | fuel + 1, '\x7b' :: rest =>
      match skipBlanks rest with
      | '\x7d' :: rest => some (.object [], rest)
      | rest => (readMembers fuel rest).map fun read => (.object read.1, read.2)
  | fuel + 1, '[' :: rest =>
      match skipBlanks rest with
      | ']' :: rest => some (.array [], rest)
      | rest => (readItems fuel rest).map fun read => (.array read.1, read.2)
  | _ + 1, text => readScalar ofNumeral text

/-- The members of an object up to its end, and the rest. -/
def readMembers : Nat → CString → Option (List (CString × Json α) × CString)
  | fuel + 1, '"' :: rest => do
      let (name, rest) ← readString rest
      match skipBlanks rest with
      | ':' :: rest => do
          let (value, rest) ← readValue fuel (skipBlanks rest)
          afterEntry '\x7d' (readMembers fuel) (name, value) rest
      | _ => none
  | _, _ => none

/-- The items of an array up to its end, and the rest. -/
def readItems : Nat → CString → Option (List (Json α) × CString)
  | 0, _ => none
  | fuel + 1, text => do
      let (value, rest) ← readValue fuel text
      afterEntry ']' (readItems fuel) value rest

end

/-- The value of a text. Every call reads a character, so the length is enough fuel. -/
def parse (text : CString) : Option (Json α) := do
  let (value, rest) ← readValue ofNumeral (text.length + 1) (skipBlanks text)
  if skipBlanks rest = [] then some value else none

end Values

/-! ## What is read of a string -/

theorem length_unicodeEscape {text : CString} {code : Nat} {rest : CString}
    (hescape : unicodeEscape text = some (code, rest)) : rest.length < text.length := by
  unfold unicodeEscape at hescape
  split at hescape
  next a b c d others =>
    obtain ⟨_, _, hcode⟩ := Option.map_eq_some_iff.mp hescape
    cases hcode
    simp only [List.length_cons]
    omega
  · cases hescape

/-- An escape is at least one character long, without its backslash. -/
theorem length_readEscape {text : CString} {c : Char} {rest : CString}
    (hescape : readEscape text = some (c, rest)) : rest.length < text.length := by
  unfold readEscape at hescape
  split at hescape
  next code others hunicode =>
    have hlength := length_unicodeEscape hunicode
    split at hescape
    next hcharacter =>
      cases hescape
      exact hlength
    next second _ _ =>
      obtain ⟨⟨low, after⟩, hlow, hpair⟩ := Option.bind_eq_some_iff.mp hescape
      obtain ⟨_, _, hchar⟩ := Option.bind_eq_some_iff.mp hpair
      cases hchar
      have hsecond := length_unicodeEscape hlow
      simp only [List.length_cons] at hlength
      omega
    · cases hescape
  next hunicode =>
    split at hescape
    next first others =>
      obtain ⟨_, _, hchar⟩ := Option.map_eq_some_iff.mp hescape
      cases hchar
      exact Nat.lt_succ_self _
    · cases hescape

/-- Decoding makes a string shorter, except where nothing is escaped. -/
theorem decodeString_length {fuel : Nat} {body value : CString}
    (hdecode : decodeString fuel body = some value) :
    value.length ≤ body.length ∧ (body.length ≤ value.length → value = body ∧ '\\' ∉ body) := by
  induction fuel generalizing body value with
  | zero =>
      cases body with
      | nil =>
          cases hdecode
          exact ⟨le_rfl, fun _ => ⟨rfl, List.not_mem_nil⟩⟩
      | cons c rest => cases hdecode
  | succ fuel ih =>
      unfold decodeString at hdecode
      split at hdecode
      · cases hdecode
        exact ⟨le_rfl, fun _ => ⟨rfl, List.not_mem_nil⟩⟩
      next heq => cases heq
      next rest heq =>
        cases heq
        obtain ⟨⟨c, after⟩, hescape, hrest⟩ := Option.bind_eq_some_iff.mp hdecode
        obtain ⟨others, hothers, hvalue⟩ := Option.bind_eq_some_iff.mp hrest
        cases hvalue
        have hshort := (ih hothers).1
        have hlength := length_readEscape hescape
        simp only [List.length_cons]
        constructor
        · omega
        · intro hle
          omega
      next c rest hne heq =>
        cases heq
        obtain ⟨others, hothers, hvalue⟩ := Option.map_eq_some_iff.mp hdecode
        subst hvalue
        obtain ⟨hshort, hsame⟩ := ih hothers
        simp only [List.length_cons, Nat.add_le_add_iff_right]
        refine ⟨hshort, fun hle => ?_⟩
        obtain ⟨rfl, hplain⟩ := hsame hle
        refine ⟨rfl, ?_⟩
        rw [List.mem_cons, not_or]
        exact ⟨fun heq => hne heq.symm, hplain⟩

/-- Without a backslash there is nothing to decode. -/
theorem decodeString_of_plain {body : CString} (hplain : '\\' ∉ body) :
    decodeString body.length body = some body := by
  induction body with
  | nil => rfl
  | cons c rest ih =>
      rw [List.mem_cons, not_or] at hplain
      have hc : c ≠ '\\' := fun heq => hplain.1 heq.symm
      rw [List.length_cons, decodeString]
      · rw [ih hplain.2]
        rfl
      · exact hc

/-- Where a string is cut. Without a backslash all of its characters are plain. -/
theorem cutString_spec {text body rest : CString} (hcut : cutString text = some (body, rest)) :
    text = body ++ '"' :: rest ∧ ('\\' ∉ body → PlainText body) := by
  induction text using cutString.induct generalizing body rest with
  | case1 => cases hcut
  | case2 others =>
      cases hcut
      exact ⟨rfl, fun _ _ hc => absurd hc List.not_mem_nil⟩
  | case3 c others ih =>
      rw [cutString] at hcut
      obtain ⟨⟨body', rest'⟩, hothers, heq⟩ := Option.map_eq_some_iff.mp hcut
      cases heq
      refine ⟨by rw [(ih hothers).1]; rfl, fun hplain => absurd List.mem_cons_self hplain⟩
  | case4 c others hquote hescape hc ih =>
      rw [cutString, if_pos hc] at hcut
      · obtain ⟨⟨body', rest'⟩, hothers, heq⟩ := Option.map_eq_some_iff.mp hcut
        cases heq
        obtain ⟨hsplit, hrest⟩ := ih hothers
        refine ⟨by rw [hsplit]; rfl, fun hplain => ?_⟩
        rw [List.mem_cons, not_or] at hplain
        exact List.forall_mem_cons.mpr ⟨hc, hrest hplain.2⟩
      · exact hquote
      · exact hescape
  | case5 c others hquote hescape hc =>
      rw [cutString, if_neg hc] at hcut
      · cases hcut
      · exact hquote
      · exact hescape

theorem ne_of_isPlain {c : Char} (hc : isPlain c = true) : c ≠ '"' ∧ c ≠ '\\' := by
  constructor
  · rintro rfl
    cases hc
  · rintro rfl
    cases hc

/-- A string of plain characters is cut at the quote that follows it. -/
theorem cutString_of_plain {body : CString} (hplain : PlainText body)
    (rest : CString) : cutString (body ++ '"' :: rest) = some (body, rest) := by
  induction body with
  | nil => rfl
  | cons c others ih =>
      obtain ⟨hc, hothers⟩ := List.forall_mem_cons.mp hplain
      obtain ⟨hquote, hescape⟩ := ne_of_isPlain hc
      rw [List.cons_append, cutString, if_pos hc, ih hothers]
      · rfl
      · exact hquote
      · exact fun _ _ heq => absurd heq hescape

/-- Where no string can end further on, a string ends with the text before the quote at
the latest. -/
theorem cutString_length {rest : CString} (hstop : cutString rest = none) {text body : CString}
    {after : CString} (hcut : cutString (text ++ '"' :: rest) = some (body, after)) :
    body.length ≤ text.length := by
  induction text using cutString.induct generalizing body after with
  | case1 =>
      cases hcut
      exact le_rfl
  | case2 others =>
      cases hcut
      exact Nat.zero_le _
  | case3 c others ih =>
      rw [List.cons_append, List.cons_append, cutString] at hcut
      obtain ⟨⟨body', after'⟩, hothers, heq⟩ := Option.map_eq_some_iff.mp hcut
      cases heq
      exact Nat.succ_le_succ (Nat.succ_le_succ (ih hothers))
  | case4 c others hquote hescape hc ih =>
      obtain ⟨_, hbackslash⟩ := ne_of_isPlain hc
      rw [List.cons_append, cutString, if_pos hc] at hcut
      · obtain ⟨⟨body', after'⟩, hothers, heq⟩ := Option.map_eq_some_iff.mp hcut
        cases heq
        exact Nat.succ_le_succ (ih hothers)
      · exact hquote
      · exact fun _ _ heq => absurd heq hbackslash
  | case5 c others hquote hescape hc =>
      by_cases hbackslash : c = '\\'
      · subst hbackslash
        cases others with
        | cons d others => exact absurd rfl (hescape d others rfl)
        -- a backslash before the quote lets the string go on behind it
        | nil =>
            change (cutString rest).map _ = _ at hcut
            rw [hstop] at hcut
            cases hcut
      · rw [List.cons_append, cutString, if_neg hc] at hcut
        · cases hcut
        · exact hquote
        · exact fun _ _ heq => absurd heq hbackslash

theorem readString_of_plain {body : CString} (hplain : PlainText body)
    (rest : CString) : readString (body ++ '"' :: rest) = some (body, rest) := by
  have hbackslash : '\\' ∉ body := fun hmem => (ne_of_isPlain (hplain _ hmem)).2 rfl
  rw [readString, cutString_of_plain hplain]
  change (decodeString body.length body).bind _ = _
  rw [decodeString_of_plain hbackslash]
  rfl

/-- A string that is given, of which at most some characters are written, is read back
exactly when it is written as a whole and all of its characters are plain. -/
theorem readString_take_iff {rest : CString} (hstop : cutString rest = none) (count : Nat)
    {given after : CString} :
    readString (given.take count ++ '"' :: rest) = some (given, after) ↔
      (given.length ≤ count ∧ PlainText given) ∧ after = rest := by
  constructor
  · intro hread
    obtain ⟨⟨body, after'⟩, hcut, hvalue⟩ := Option.bind_eq_some_iff.mp hread
    obtain ⟨value, hdecode, heq⟩ := Option.bind_eq_some_iff.mp hvalue
    cases heq
    have hend := cutString_length hstop hcut
    obtain ⟨hsplit, hplain⟩ := cutString_spec hcut
    obtain ⟨hshort, hsame⟩ := decodeString_length hdecode
    have hcount : given.length ≤ count := by
      rw [List.length_take] at hend
      omega
    rw [List.take_of_length_le hcount] at hend hsplit
    obtain ⟨rfl, hbackslash⟩ := hsame hend
    refine ⟨⟨hcount, hplain hbackslash⟩, ?_⟩
    exact (List.cons.inj (List.append_cancel_left hsplit)).2.symm
  · rintro ⟨⟨hcount, hplain⟩, rfl⟩
    rw [List.take_of_length_le hcount]
    exact readString_of_plain hplain after

end JsonText

/-! ## Comparing values -/

section Comparing

variable {α : Type} [DecidableEq α]

namespace Json

mutual

/-- Whether two values are the same. -/
def same : Json α → Json α → Bool
  | .null, .null => true
  | .bool first, .bool second => first = second
  | .number first, .number second => first = second
  | .string first, .string second => first = second
  | .array firsts, .array seconds => sameItems firsts seconds
  | .object firsts, .object seconds => sameMembers firsts seconds
  | _, _ => false

def sameItems : List (Json α) → List (Json α) → Bool
  | [], [] => true
  | first :: firsts, second :: seconds => first.same second && sameItems firsts seconds
  | _, _ => false

def sameMembers : List (CString × Json α) → List (CString × Json α) → Bool
  | [], [] => true
  | (name, first) :: firsts, (other, second) :: seconds =>
      name = other && (first.same second && sameMembers firsts seconds)
  | _, _ => false

end

mutual

theorem eq_of_same {first second : Json α} (hsame : first.same second = true) :
    first = second := by
  cases first with
  | null => cases second <;> simp_all [same]
  | bool value => cases second <;> simp_all [same]
  | number value => cases second <;> simp_all [same]
  | string value => cases second <;> simp_all [same]
  | array items =>
      cases second with
      | array others => rw [eq_of_sameItems hsame]
      | _ => cases hsame
  | object members =>
      cases second with
      | object others => rw [eq_of_sameMembers hsame]
      | _ => cases hsame

theorem eq_of_sameItems {firsts seconds : List (Json α)}
    (hsame : sameItems firsts seconds = true) : firsts = seconds := by
  cases firsts with
  | nil => cases seconds <;> simp_all [sameItems]
  | cons first rest =>
      cases seconds with
      | nil => cases hsame
      | cons second others =>
          rw [sameItems, Bool.and_eq_true] at hsame
          rw [eq_of_same hsame.1, eq_of_sameItems hsame.2]

theorem eq_of_sameMembers {firsts seconds : List (CString × Json α)}
    (hsame : sameMembers firsts seconds = true) : firsts = seconds := by
  cases firsts with
  | nil => cases seconds <;> simp_all [sameMembers]
  | cons first rest =>
      cases seconds with
      | nil => cases hsame
      | cons second others =>
          obtain ⟨name, value⟩ := first
          obtain ⟨other, value'⟩ := second
          rw [sameMembers, Bool.and_eq_true, Bool.and_eq_true] at hsame
          rw [of_decide_eq_true hsame.1, eq_of_same hsame.2.1, eq_of_sameMembers hsame.2.2]

end

end Json

end Comparing

end QuantTrading
