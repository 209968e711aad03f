import QuantTrading.Utils.CNumerals

/-! # Numbers that a text denotes

`atof` also reads hexadecimal numerals, whose exponent is a power of two. A text denotes
a number when the whole of it is a decimal or a hexadecimal numeral; what `atof` takes
without an error is far more.
-/

namespace QuantTrading

namespace CNumerals

/-- A hexadecimal numeral: `0x`, digits that may have a point, and an exponent. -/
structure HexNumeral where
  sign : Sign
  upper : Bool
  whole : CString
  fraction : Option CString
  exponent : Option (Bool × DecimalInteger)
  digits_ne : whole ++ fraction.getD [] ≠ []
  isDigits : ∀ c ∈ whole ++ fraction.getD [], isDigit 16 c = true

namespace HexNumeral

/-- The exponent, with `P` or `p` before it. -/
def exponentText : Option (Bool × DecimalInteger) → CString
  | none => []
  | some (upper, exponent) => (if upper then 'P' else 'p') :: exponent.text

def text (numeral : HexNumeral) : CString :=
  numeral.sign.text ++ ('0' :: (if numeral.upper then 'X' else 'x') :: (numeral.whole ++
    (DecimalNumeral.fractionText numeral.fraction ++ exponentText numeral.exponent)))

def value (numeral : HexNumeral) : ℚ :=
  let fraction := numeral.fraction.getD []
  numeral.sign.apply (digitsValue 16 (numeral.whole ++ fraction) / 16 ^ fraction.length *
    2 ^ DecimalNumeral.exponentValue numeral.exponent)

theorem readExponent_text (exponent : Option (Bool × DecimalInteger)) :
    readExponent 'p' (exponentText exponent) = DecimalNumeral.exponentValue exponent := by
  rcases exponent with _ | ⟨_ | _, exponent⟩
  · rfl
  · exact readInteger_text exponent
  · exact readInteger_text exponent

/-- No digit follows the digits of a numeral. -/
theorem exponentText_head (exponent : Option (Bool × DecimalInteger)) :
    ∀ c ∈ (exponentText exponent).head?, isDigit 16 c = false ∧ c ≠ '.' := by
  rcases exponent with _ | ⟨_ | _, exponent⟩
  · simp [exponentText]
  · intro c hc
    cases hc
    decide
  · intro c hc
    cases hc
    decide

/-- The digits of a numeral are read up to its exponent. -/
theorem readFixed_text {whole : CString} {fraction : Option CString}
    (hdigits : ∀ c ∈ whole ++ fraction.getD [], isDigit 16 c = true)
    (exponent : Option (Bool × DecimalInteger)) :
    readFixed 16 (whole ++ (DecimalNumeral.fractionText fraction ++ exponentText exponent)) =
      (whole, fraction.getD [], exponentText exponent) := by
  obtain ⟨hwhole, hfraction⟩ := List.forall_mem_append.mp hdigits
  have hexponent := exponentText_head exponent
  cases fraction with
  | none =>
      have hend : ∀ c ∈ (exponentText exponent).head?, isDigit 16 c = false :=
        fun c hc => (hexponent c hc).1
      obtain ⟨htake, hdrop⟩ := span_isDigit hwhole hend
      rw [DecimalNumeral.fractionText, List.nil_append, readFixed, htake, hdrop]
      split
      next rest htext =>
        rw [htext] at hexponent
        exact absurd rfl (hexponent '.' rfl).2
      · rfl
  | some digits =>
      have hpoint : ∀ c ∈ ('.' :: (digits ++ exponentText exponent)).head?,
          isDigit 16 c = false := by
        intro c hc
        cases hc
        decide
      obtain ⟨htake, hdrop⟩ := span_isDigit hwhole hpoint
      have hend : ∀ c ∈ (exponentText exponent).head?, isDigit 16 c = false :=
        fun c hc => (hexponent c hc).1
      obtain ⟨htake', hdrop'⟩ := span_isDigit hfraction hend
      rw [DecimalNumeral.fractionText, List.cons_append, readFixed, htake, hdrop]
      rw [Option.getD_some] at htake' hdrop'
      change (whole, (digits ++ exponentText exponent).takeWhile (isDigit 16),
        (digits ++ exponentText exponent).dropWhile (isDigit 16)) = _
      rw [htake', hdrop']
      rfl

end HexNumeral

theorem startsWith_cons_of_ne {c d : Char} {word text : CString} (hne : c.toLower ≠ d.toLower) :
    startsWith (d :: word) (c :: text) = false := by
  rw [startsWith, OrderLoader.equalIgnoringCase, decide_eq_false_iff_not]
  intro hequal
  exact hne (List.cons.inj hequal).1

/-- A hexadecimal numeral is read with its value. -/
theorem strtod_hexText (numeral : HexNumeral) :
    strtod numeral.text = .finite numeral.value := by
  obtain ⟨sign, upper, whole, fraction, exponent, hne, hdigits⟩ := numeral
  let x := if upper then 'X' else 'x'
  let rest := whole ++ (DecimalNumeral.fractionText fraction ++
    HexNumeral.exponentText exponent)
  have hblank : (sign.text ++ '0' :: x :: rest).dropWhile OrderLoader.isSpace =
      sign.text ++ '0' :: x :: rest := by
    cases sign <;> rfl
  have hstart : startsWith "0x".toList ('0' :: x :: rest) = true := by
    cases upper <;> rfl
  change strtod (sign.text ++ '0' :: x :: rest) = _
  rw [strtod, hblank, readSign_text sign (by decide) (by decide)]
  dsimp only
  rw [readUnsigned, show "nan".toList = ['n', 'a', 'n'] from rfl,
    show "inf".toList = ['i', 'n', 'f'] from rfl, startsWith_cons_of_ne (by decide),
    startsWith_cons_of_ne (by decide), hstart]
  simp only [Bool.false_eq_true, if_false, if_true]
  rw [List.drop_succ_cons, List.drop_succ_cons, List.drop_zero, readNumber,
    HexNumeral.readFixed_text hdigits]
  dsimp only
  rw [HexNumeral.readExponent_text]
  norm_num [HexNumeral.value]

example : strtod "-0x1.8P+3 lots".toList = .finite (-12) := by decide +kernel

/-- The number that a text denotes as a whole. -/
def Denotes (text : CString) (value : ℚ) : Prop :=
  (∃ numeral : DecimalNumeral, numeral.text = text ∧ numeral.value = value) ∨
    ∃ numeral : HexNumeral, numeral.text = text ∧ numeral.value = value

theorem Denotes.strtod_eq {text : CString} {value : ℚ} (hdenotes : Denotes text value) :
    strtod text = .finite value := by
  rcases hdenotes with ⟨numeral, rfl, rfl⟩ | ⟨numeral, rfl, rfl⟩
  · exact strtod_text numeral
  · exact strtod_hexText numeral

theorem Denotes.ne_nil {text : CString} {value : ℚ} (hdenotes : Denotes text value) :
    text ≠ [] := by
  rintro rfl
  rcases hdenotes with ⟨numeral, htext, -⟩ | ⟨numeral, htext, -⟩
  · obtain ⟨-, hwhole, hfraction, -⟩ : numeral.sign.text = [] ∧ numeral.whole = [] ∧
        DecimalNumeral.fractionText numeral.fraction = [] ∧
          DecimalNumeral.exponentText numeral.exponent = [] := by
      simpa [DecimalNumeral.text] using htext
    apply numeral.digits_ne
    rw [hwhole]
    cases hdigits : numeral.fraction with
    | none => rfl
    | some digits =>
        rw [hdigits] at hfraction
        cases hfraction
  · simp [HexNumeral.text] at htext

end CNumerals

/-- `atof` gives the nearest value of the number that a text denotes. -/
theorem CNumeralLibrary.atof_of_denotes (library : CNumeralLibrary) {text : CString} {value : ℚ}
    (hdenotes : CNumerals.Denotes text value) :
    library.atof text = .number (library.nearest value) := by
  rw [CNumeralLibrary.atof, hdenotes.strtod_eq]
  rfl

end QuantTrading
