import QuantTrading.Utils.OrderLoader
import Mathlib.Algebra.Field.Rat
import Mathlib.Algebra.Order.Ring.Rat
import Mathlib.Data.List.Infix
import Mathlib.Order.WithBot

/-! # Numerals of C

The readers `atof` and `atoi` of the C library. Both skip blanks, take a sign and as
many characters as still form a numeral, and ignore what follows; a text that starts
with no numeral is read as zero. `atof` also takes hexadecimal numerals, infinities and
NaN. How a number is rounded to a `double`, and what `atoi` returns for a number that is
no `int`, are parameters.
-/

namespace QuantTrading

/-! ## Doubles -/

/-- The values of a `double` that are ordered, with the infinities at the ends. The two
zeros are not distinguished. -/
abbrev OrderedDouble : Type := WithBot (WithTop ℚ)

/-- The values of a `double`. -/
inductive Double where
  | nan
  | number (value : OrderedDouble)
deriving DecidableEq

namespace Double

/-- A comparison with NaN is false. -/
def Compares (relation : OrderedDouble → OrderedDouble → Prop) : Double → Double → Prop
  | number first, number second => relation first second
  | _, _ => False

instance (relation : OrderedDouble → OrderedDouble → Prop) [DecidableRel relation]
    (first second : Double) : Decidable (Compares relation first second) :=
  match first, second with
  | number first, number second => inferInstanceAs (Decidable (relation first second))
  | nan, _ => isFalse not_false
  | number _, nan => isFalse not_false

instance : LT Double := ⟨Compares (· < ·)⟩

instance : LE Double := ⟨Compares (· ≤ ·)⟩

instance : DecidableLT Double := fun first second =>
  inferInstanceAs (Decidable (Compares (· < ·) first second))

instance : DecidableLE Double := fun first second =>
  inferInstanceAs (Decidable (Compares (· ≤ ·) first second))

instance : Zero Double := ⟨number 0⟩

@[simp] theorem number_lt_number {first second : OrderedDouble} :
    number first < number second ↔ first < second := Iff.rfl

@[simp] theorem number_le_number {first second : OrderedDouble} :
    number first ≤ number second ↔ first ≤ second := Iff.rfl

end Double

/-! ## Signs and digits -/

namespace CNumerals

/-- The sign of a numeral. -/
inductive Sign where
  | absent
  | plus
  | minus
deriving DecidableEq

namespace Sign

def text : Sign → CString
  | absent => []
  | plus => ['+']
  | minus => ['-']

def apply {R : Type} [Neg R] : Sign → R → R
  | minus, value => -value
  | _, value => value

end Sign

/-- The sign at the start of a text, and the rest. -/
def readSign : CString → Sign × CString
  | '+' :: rest => (.plus, rest)
  | '-' :: rest => (.minus, rest)
  | rest => (.absent, rest)

/-- The value of a digit, for the bases up to sixteen. -/
def digitValue (c : Char) : Nat :=
  if c.isDigit then c.toNat - '0'.toNat
  else if 'a' ≤ c.toLower ∧ c.toLower ≤ 'f' then c.toLower.toNat - 'a'.toNat + 10
  else 16

def isDigit (base : Nat) (c : Char) : Bool :=
  digitValue c < base

/-- The number that digits stand for. -/
def digitsValue (base : Nat) (digits : CString) : Nat :=
  digits.foldl (fun value c => base * value + digitValue c) 0

/-- The integer at the start of a text. -/
def readInteger (text : CString) : Int :=
  let (sign, rest) := readSign text
  sign.apply (digitsValue 10 (rest.takeWhile (isDigit 10)) : Int)

/-- Digits with a point: those before it, those after it, and the rest. -/
def readFixed (base : Nat) (text : CString) : CString × CString × CString :=
  let whole := text.takeWhile (isDigit base)
  match text.dropWhile (isDigit base) with
  | '.' :: rest => (whole, rest.takeWhile (isDigit base), rest.dropWhile (isDigit base))
  | rest => (whole, [], rest)

/-- The exponent at the start of a text, zero when there is none. -/
def readExponent (marker : Char) : CString → Int
  | [] => 0
  | c :: rest => if c.toLower = marker then readInteger rest else 0

/-- The number at the start of a text. Without digits it is zero. -/
def readNumber (base scale : Nat) (marker : Char) (text : CString) : ℚ :=
  let (whole, fraction, rest) := readFixed base text
  digitsValue base (whole ++ fraction) / (base : ℚ) ^ fraction.length *
    (scale : ℚ) ^ readExponent marker rest

/-! ## The readers -/

/-- What `strtod` recognizes at the start of a text. -/
inductive Numeral where
  | finite (value : ℚ)
  | infinite (sign : Sign)
  | nan
deriving DecidableEq

/-- Whether a text starts with a word in either case. -/
def startsWith (word text : CString) : Bool :=
  OrderLoader.equalIgnoringCase (text.take word.length) word

/-- The numeral without its sign. -/
def readUnsigned (sign : Sign) (text : CString) : Numeral :=
  if startsWith "nan".toList text then .nan
  else if startsWith "inf".toList text then .infinite sign
  else if startsWith "0x".toList text then
    .finite (sign.apply (readNumber 16 2 'p' (text.drop 2)))
  else .finite (sign.apply (readNumber 10 10 'e' text))

/-- `strtod`, without the position where it stops and before rounding. -/
def strtod (text : CString) : Numeral :=
  let (sign, rest) := readSign (text.dropWhile OrderLoader.isSpace)
  readUnsigned sign rest

end CNumerals

/-- The parts of the C library that the standard leaves open or that are about the
representation of a `double`: the ordered value nearest to a number, and what `atoi`
returns for a number that is no `int`. -/
structure CNumeralLibrary where
  nearest : ℚ → OrderedDouble
  unrepresentable : Int → Int

namespace CNumeralLibrary

variable (library : CNumeralLibrary)

/-- The `double` of a numeral. -/
def toDouble : CNumerals.Numeral → Double
  | .finite value => .number (library.nearest value)
  | .infinite .minus => .number ⊥
  | .infinite _ => .number ⊤
  | .nan => .nan

/-- `atof`. -/
def atof (text : CString) : Double :=
  library.toDouble (CNumerals.strtod text)

/-- `atoi`. -/
def atoi (text : CString) : Int :=
  let value := CNumerals.readInteger (text.dropWhile OrderLoader.isSpace)
  if IsInt value then value else library.unrepresentable value

/-- The two readers. -/
def readers : NumeralReaders Double where
  atof := library.atof
  atoi := library.atoi

end CNumeralLibrary

/-! ## Decimal numerals

What a text that is a numeral as a whole looks like, and that the readers give its value.
-/

namespace CNumerals

/-- Decimal digits. -/
def IsDigits (digits : CString) : Prop :=
  ∀ c ∈ digits, c.isDigit = true

/-- A decimal integer. -/
structure DecimalInteger where
  sign : Sign
  digits : CString
  digits_ne : digits ≠ []
  isDigits : IsDigits digits

namespace DecimalInteger

def text (integer : DecimalInteger) : CString :=
  integer.sign.text ++ integer.digits

def value (integer : DecimalInteger) : Int :=
  integer.sign.apply (digitsValue 10 integer.digits : Int)

end DecimalInteger

/-- A decimal numeral: digits that may have a point and an exponent. -/
structure DecimalNumeral where
  sign : Sign
  whole : CString
  fraction : Option CString
  exponent : Option (Bool × DecimalInteger)
  digits_ne : whole ++ fraction.getD [] ≠ []
  isDigits : IsDigits (whole ++ fraction.getD [])

namespace DecimalNumeral

/-- The point and what follows it. -/
def fractionText : Option CString → CString
  | none => []
  | some digits => '.' :: digits

/-- The exponent, with `E` or `e` before it. -/
def exponentText : Option (Bool × DecimalInteger) → CString
  | none => []
  | some (upper, exponent) => (if upper then 'E' else 'e') :: exponent.text

def text (numeral : DecimalNumeral) : CString :=
  numeral.sign.text ++ (numeral.whole ++ (fractionText numeral.fraction ++
    exponentText numeral.exponent))

/-- The power of ten of an exponent. -/
def exponentValue : Option (Bool × DecimalInteger) → Int
  | none => 0
  | some (_, exponent) => exponent.value

def value (numeral : DecimalNumeral) : ℚ :=
  let fraction := numeral.fraction.getD []
  numeral.sign.apply (digitsValue 10 (numeral.whole ++ fraction) / 10 ^ fraction.length *
    10 ^ exponentValue numeral.exponent)

end DecimalNumeral

/-! ## Reading a decimal numeral -/

theorem mem_digits_of_isDigit {c : Char} (hc : c.isDigit = true) :
    c ∈ "0123456789".toList := by
  rw [Char.isDigit_iff_toNat] at hc
  obtain ⟨hlower, hupper⟩ : 48 ≤ c.toNat ∧ c.toNat ≤ 57 := hc
  have hdigit : ∀ n, n < 10 → Char.ofNat (48 + n) ∈ "0123456789".toList := by decide
  have hmem := hdigit (c.toNat - 48) (by omega)
  rwa [Nat.add_sub_cancel' hlower, Char.ofNat_toNat] at hmem

/-- The digits of base ten are the decimal digits. -/
theorem isDigit_ten (c : Char) : isDigit 10 c = c.isDigit := by
  cases hc : c.isDigit with
  | true =>
      have hall : "0123456789".toList.all (isDigit 10) = true := by decide
      exact List.all_eq_true.mp hall c (mem_digits_of_isDigit hc)
  | false =>
      rw [isDigit, digitValue, hc, decide_eq_false_iff_not]
      simp only [Bool.false_eq_true, if_false]
      split_ifs <;> omega

/-- The characters of a decimal numeral. -/
def numeralChar (c : Char) : Bool :=
  c.isDigit || "+-.eE".toList.contains c

/-- A numeral has no blank, and no letter of `nan`, `inf` or `0x`. -/
theorem of_numeralChar {c : Char} (hc : numeralChar c = true) :
    OrderLoader.isSpace c = false ∧ c.toLower ≠ 'n' ∧ c.toLower ≠ 'x' := by
  have hall : ("0123456789".toList ++ "+-.eE".toList).all (fun c =>
      !OrderLoader.isSpace c && (c.toLower != 'n' && c.toLower != 'x')) = true := by decide
  have hmem : c ∈ "0123456789".toList ++ "+-.eE".toList := by
    rw [numeralChar, Bool.or_eq_true] at hc
    rcases hc with hdigit | hother
    · exact List.mem_append_left _ (mem_digits_of_isDigit hdigit)
    · exact List.mem_append_right _ (List.contains_iff_mem.mp hother)
  simpa using List.all_eq_true.mp hall c hmem

theorem IsDigits.numeralChar {digits : CString} (hdigits : IsDigits digits) :
    ∀ c ∈ digits, numeralChar c = true := by
  intro c hc
  rw [CNumerals.numeralChar, hdigits c hc, Bool.true_or]

theorem Sign.numeralChar_text (sign : Sign) : ∀ c ∈ sign.text, numeralChar c = true := by
  apply List.all_eq_true.mp
  cases sign <;> decide

theorem DecimalInteger.numeralChar_text (integer : DecimalInteger) :
    ∀ c ∈ integer.text, numeralChar c = true := by
  intro c hc
  rcases List.mem_append.mp hc with hsign | hdigit
  · exact integer.sign.numeralChar_text c hsign
  · exact integer.isDigits.numeralChar c hdigit

/-- A text that does not go on with a digit. -/
def NoDigitNext (rest : CString) : Prop :=
  ∀ c ∈ rest.head?, c.isDigit = false

/-- The digits of a base are read up to where they end. -/
theorem span_isDigit {base : Nat} {digits rest : CString}
    (hdigits : ∀ c ∈ digits, isDigit base c = true)
    (hrest : ∀ c ∈ rest.head?, isDigit base c = false) :
    (digits ++ rest).takeWhile (isDigit base) = digits ∧
      (digits ++ rest).dropWhile (isDigit base) = rest := by
  rw [List.takeWhile_append_of_pos hdigits, List.dropWhile_append_of_pos hdigits]
  cases rest with
  | nil => simp
  | cons c rest => simp [hrest c rfl]

/-- Decimal digits are read up to where they end. -/
theorem span_digits {digits rest : CString} (hdigits : IsDigits digits)
    (hrest : NoDigitNext rest) :
    (digits ++ rest).takeWhile (isDigit 10) = digits ∧
      (digits ++ rest).dropWhile (isDigit 10) = rest := by
  apply span_isDigit
  · intro c hc
    rw [isDigit_ten, hdigits c hc]
  · intro c hc
    rw [isDigit_ten]
    exact hrest c hc

/-- What starts with a digit or a point has no sign. -/
theorem readSign_of_unsigned {c : Char} {rest : CString} (hplus : c ≠ '+') (hminus : c ≠ '-') :
    readSign (c :: rest) = (.absent, c :: rest) := by
  unfold readSign
  split
  next hcons => exact absurd (List.cons.inj hcons).1 hplus
  next hcons => exact absurd (List.cons.inj hcons).1 hminus
  · rfl

theorem readSign_text (sign : Sign) {c : Char} {rest : CString} (hplus : c ≠ '+')
    (hminus : c ≠ '-') : readSign (sign.text ++ c :: rest) = (sign, c :: rest) := by
  cases sign with
  | absent => exact readSign_of_unsigned hplus hminus
  | plus => rfl
  | minus => rfl

theorem ne_sign_of_isDigit {c : Char} (hc : c.isDigit = true) : c ≠ '+' ∧ c ≠ '-' := by
  constructor
  · rintro rfl
    cases hc
  · rintro rfl
    cases hc

theorem readInteger_append (sign : Sign) {digits : CString} (hdigits : IsDigits digits) :
    readInteger (sign.text ++ digits) = sign.apply (digitsValue 10 digits : Int) := by
  cases digits with
  | nil => cases sign <;> rfl
  | cons c digits =>
      have hend : NoDigitNext [] := by simp [NoDigitNext]
      have hspan := (span_digits hdigits hend).1
      rw [List.append_nil] at hspan
      obtain ⟨hplus, hminus⟩ := ne_sign_of_isDigit (hdigits c List.mem_cons_self)
      rw [readInteger, readSign_text sign hplus hminus]
      dsimp only
      rw [hspan]

theorem readInteger_text (integer : DecimalInteger) :
    readInteger integer.text = integer.value :=
  readInteger_append integer.sign integer.isDigits

theorem digitsValue_append (base : Nat) (first second : CString) :
    digitsValue base (first ++ second) =
      digitsValue base first * base ^ second.length + digitsValue base second := by
  have hfold : ∀ (digits : CString) (value : Nat),
      digits.foldl (fun value c => base * value + digitValue c) value =
        value * base ^ digits.length + digitsValue base digits := by
    intro digits
    induction digits with
    | nil => simp [digitsValue]
    | cons c digits ih =>
        intro value
        rw [digitsValue, List.foldl_cons, List.foldl_cons, ih, ih, List.length_cons, pow_succ]
        ring
  rw [digitsValue, List.foldl_append, hfold]
  rfl

/-- Some of the digits of a positive number stand for a smaller number. -/
theorem digitsValue_lt {first second : CString} (hsecond : second ≠ [])
    (hpos : 0 < digitsValue 10 (first ++ second)) :
    digitsValue 10 first < digitsValue 10 (first ++ second) := by
  rw [digitsValue_append] at hpos ⊢
  have hlength : second.length ≠ 0 := fun hzero => hsecond (List.length_eq_zero_iff.mp hzero)
  have hpow : 1 < 10 ^ second.length := Nat.one_lt_pow hlength (by decide)
  rcases Nat.eq_zero_or_pos (digitsValue 10 first) with hzero | hfirst
  · rw [hzero] at hpos ⊢
    exact hpos
  · have hmul := Nat.mul_lt_mul_of_pos_left hpow hfirst
    omega

/-- A sign alone is read as zero. -/
theorem readInteger_of_sign (sign : Sign) {text : CString} (htext : text <+: sign.text) :
    readInteger text = 0 := by
  have hall : ∀ text ∈ sign.text.inits, readInteger text = 0 := by cases sign <;> decide
  exact hall text ((List.mem_inits _ _).mpr htext)

/-- A positive integer that is cut off is read as a smaller number. -/
theorem readInteger_of_cut (integer : DecimalInteger) {cut more : CString}
    (hcut : integer.text = cut ++ more) (hmore : more ≠ []) (hpos : 0 < integer.value) :
    0 ≤ readInteger cut ∧ readInteger cut < integer.value := by
  obtain ⟨sign, digits, hne, hdigits⟩ := integer
  -- the sign is no minus
  have hsign : ∀ value : Int, sign.apply value = value := by
    intro value
    cases sign with
    | absent => rfl
    | plus => rfl
    | minus =>
        have hneg : (0 : Int) < -(digitsValue 10 digits : Int) := hpos
        omega
  have hvalue : (DecimalInteger.mk sign digits hne hdigits).value = digitsValue 10 digits :=
    hsign _
  rw [hvalue] at hpos ⊢
  rcases List.append_eq_append_iff.mp hcut with ⟨read, rfl, rfl⟩ | ⟨unread, htext, -⟩
  · have hread : IsDigits read := fun c hc => hdigits c (List.mem_append_left _ hc)
    have hlt := digitsValue_lt hmore (Int.natCast_pos.mp hpos)
    rw [readInteger_append sign hread, hsign]
    omega
  -- not even the sign is read
  · have hzero := readInteger_of_sign sign ⟨unread, htext.symm⟩
    omega

namespace DecimalNumeral

theorem noDigitNext_exponentText (exponent : Option (Bool × DecimalInteger)) :
    NoDigitNext (exponentText exponent) := by
  rcases exponent with _ | ⟨_ | _, exponent⟩ <;> simp [NoDigitNext, exponentText]

theorem noDigitNext_fractionText (fraction : Option CString)
    (exponent : Option (Bool × DecimalInteger)) :
    NoDigitNext (fractionText fraction ++ exponentText exponent) := by
  cases fraction with
  | none => exact noDigitNext_exponentText exponent
  | some digits => simp [NoDigitNext, fractionText]

theorem readExponent_text (exponent : Option (Bool × DecimalInteger)) :
    readExponent 'e' (exponentText exponent) = exponentValue exponent := by
  rcases exponent with _ | ⟨_ | _, exponent⟩
  · rfl
  · exact readInteger_text exponent
  · exact readInteger_text exponent

/-- The digits of a numeral are read up to its exponent. -/
theorem readFixed_text {whole : CString} {fraction : Option CString}
    (hdigits : IsDigits (whole ++ fraction.getD []))
    (exponent : Option (Bool × DecimalInteger)) :
    readFixed 10 (whole ++ (fractionText fraction ++ exponentText exponent)) =
      (whole, fraction.getD [], exponentText exponent) := by
  have hwhole : IsDigits whole := fun c hc => hdigits c (List.mem_append_left _ hc)
  obtain ⟨htake, hdrop⟩ := span_digits hwhole (noDigitNext_fractionText fraction exponent)
  rw [readFixed, htake, hdrop]
  cases fraction with
  | none =>
      rcases exponent with _ | ⟨_ | _, exponent⟩ <;> rfl
  | some digits =>
      have hfraction : IsDigits digits := fun c hc => hdigits c (List.mem_append_right _ hc)
      obtain ⟨htake, hdrop⟩ := span_digits hfraction (noDigitNext_exponentText exponent)
      change (whole, (digits ++ exponentText exponent).takeWhile (isDigit 10),
        (digits ++ exponentText exponent).dropWhile (isDigit 10)) = _
      rw [htake, hdrop]
      rfl

theorem numeralChar_text (numeral : DecimalNumeral) :
    ∀ c ∈ numeral.text, numeralChar c = true := by
  obtain ⟨sign, whole, fraction, exponent, _, hdigits⟩ := numeral
  have hall := hdigits.numeralChar
  intro c hc
  simp only [text, List.mem_append] at hc
  rcases hc with hc | hc | hc | hc
  · exact sign.numeralChar_text c hc
  · exact hall c (List.mem_append_left _ hc)
  · cases fraction with
    | none => cases hc
    | some digits =>
        rcases List.mem_cons.mp hc with rfl | hc
        · rfl
        · exact hall c (List.mem_append_right _ hc)
  · rcases exponent with _ | ⟨upper, exponent⟩
    · cases hc
    · rcases List.mem_cons.mp hc with rfl | hc
      · cases upper <;> rfl
      · exact exponent.numeralChar_text c hc

/-- Without its sign a numeral starts with a digit or a point. -/
theorem readSign_text (numeral : DecimalNumeral) :
    readSign numeral.text = (numeral.sign, numeral.whole ++ (fractionText numeral.fraction ++
      exponentText numeral.exponent)) := by
  obtain ⟨sign, whole, fraction, exponent, hne, hdigits⟩ := numeral
  cases whole with
  | cons c whole =>
      obtain ⟨hplus, hminus⟩ := ne_sign_of_isDigit (hdigits c (by simp))
      exact CNumerals.readSign_text sign hplus hminus
  | nil =>
      cases fraction with
      | none => exact absurd rfl hne
      | some digits => exact CNumerals.readSign_text sign (by decide) (by decide)

end DecimalNumeral

theorem startsWith_eq_false {word text : CString} {c : Char} (hword : c ∈ word)
    (hc : c.toLower = c) (htext : ∀ d ∈ text, d.toLower ≠ c) : startsWith word text = false := by
  rw [startsWith, OrderLoader.equalIgnoringCase, decide_eq_false_iff_not]
  intro hequal
  have hmem : c ∈ (text.take word.length).map Char.toLower := by
    rw [hequal]
    exact List.mem_map.mpr ⟨c, hword, hc⟩
  obtain ⟨d, hd, hlower⟩ := List.mem_map.mp hmem
  exact htext d (List.mem_of_mem_take hd) hlower

theorem dropWhile_isSpace_of_numeralChar {text : CString}
    (htext : ∀ c ∈ text, numeralChar c = true) : text.dropWhile OrderLoader.isSpace = text := by
  cases text with
  | nil => rfl
  | cons c rest =>
      have hc := (of_numeralChar (htext c List.mem_cons_self)).1
      simp [hc]

/-- A decimal numeral is read with its value. -/
theorem strtod_text (numeral : DecimalNumeral) : strtod numeral.text = .finite numeral.value := by
  have hchars := numeral.numeralChar_text
  have hsign := numeral.readSign_text
  rw [strtod, dropWhile_isSpace_of_numeralChar hchars, hsign]
  obtain ⟨sign, whole, fraction, exponent, hne, hdigits⟩ := numeral
  dsimp only
  -- none of the letters of the other forms occurs
  have hrest : ∀ c ∈ whole ++ (DecimalNumeral.fractionText fraction ++
      DecimalNumeral.exponentText exponent), c.toLower ≠ 'n' ∧ c.toLower ≠ 'x' :=
    fun c hc => (of_numeralChar (hchars c (List.mem_append_right _ hc))).2
  rw [readUnsigned, startsWith_eq_false (c := 'n') (by decide) rfl fun c hc => (hrest c hc).1,
    startsWith_eq_false (c := 'n') (by decide) rfl fun c hc => (hrest c hc).1,
    startsWith_eq_false (c := 'x') (by decide) rfl fun c hc => (hrest c hc).2]
  simp only [Bool.false_eq_true, if_false]
  rw [readNumber, DecimalNumeral.readFixed_text hdigits]
  dsimp only
  rw [DecimalNumeral.readExponent_text]
  norm_num [DecimalNumeral.value]

/-- What follows a numeral is ignored, here an exponent without digits. -/
example : strtod " -12.50e+x".toList = .finite (-25 / 2) := by decide +kernel

end CNumerals

namespace CNumeralLibrary

variable (library : CNumeralLibrary)

theorem atof_text (numeral : CNumerals.DecimalNumeral) :
    library.atof numeral.text = .number (library.nearest numeral.value) := by
  rw [atof, CNumerals.strtod_text]
  rfl

theorem atoi_text (integer : CNumerals.DecimalInteger) (hint : IsInt integer.value) :
    library.atoi integer.text = integer.value := by
  rw [atoi, CNumerals.dropWhile_isSpace_of_numeralChar integer.numeralChar_text,
    CNumerals.readInteger_text]
  exact if_pos hint

end CNumeralLibrary

end QuantTrading
