import QuantTrading.Protocol.JsonPrinting
import QuantTrading.Server.ConfirmedOrders

/-! # JSON over whole numbers

A library as the programs expect it of cJSON, for numbers that are whole: it reads the
texts of JSON, and prints what it reads back.
-/

namespace QuantTrading

open JsonText

section EndsValue

variable {rest : CString}

theorem readFraction_of_endsValue (hends : EndsValue rest) :
    readFraction rest = some ([], rest) := by
  cases rest with
  | nil => rfl
  | cons c more => rcases hends c rfl with rfl | rfl | rfl <;> rfl

theorem readExponent_of_endsValue (hends : EndsValue rest) :
    readExponent rest = some ([], rest) := by
  cases rest with
  | nil => rfl
  | cons c more => rcases hends c rfl with rfl | rfl | rfl <;> rfl

theorem noDigit_of_endsValue (hends : EndsValue rest) :
    ∀ c ∈ rest.head?, c.isDigit = false := by
  intro c hc
  rcases hends c hc with rfl | rfl | rfl <;> rfl

end EndsValue

/-- A printed integer starts with its sign or a digit. -/
theorem printLong_starts (value : Int) :
    ∃ c more, printLong value = c :: more ∧ startsNumeral c = true := by
  rw [printLong_eq]
  cases decide (value < 0) with
  | true => exact ⟨'-', _, rfl, rfl⟩
  | false =>
      cases hdigits : Nat.toDigits 10 value.natAbs with
      | nil => exact absurd hdigits Nat.toDigits_ne_nil
      | cons c more =>
          have hc : c.isDigit = true := isDigit_of_mem_toDigits c (hdigits ▸ List.mem_cons_self)
          exact ⟨c, more, rfl, by rw [startsNumeral, hc, Bool.true_or]⟩

/-- A printed integer is read as its numeral, whatever value it stands in. -/
theorem reads_printLong {α : Type} {ofNumeral : CString → α} (value : Int) :
    Reads ofNumeral (printLong value) (.number (ofNumeral (printLong value))) := by
  refine ⟨?_, fun fuel rest hfuel hends => ?_⟩
  · obtain ⟨c, more, hstart, hc⟩ := printLong_starts value
    have hne : ∀ d, startsNumeral d = false → c ≠ d := by
      rintro d hd rfl
      rw [hc] at hd
      cases hd
    refine ⟨c, more, hstart, ?_, hne ']' (by decide)⟩
    simp [isBlank, hne ' ' (by decide), hne '\t' (by decide), hne '\n' (by decide),
      hne '\r' (by decide)]
  · have hread : readMagnitude (Nat.toDigits 10 value.natAbs ++ [] ++ rest) =
        some (Nat.toDigits 10 value.natAbs ++ [], rest) := by
      rw [List.append_nil, readMagnitude_toDigits _ (noDigit_of_endsValue hends),
        readFraction_of_endsValue hends, Option.bind_some, readExponent_of_endsValue hends]
      simp
    have hdigits : Nat.toDigits 10 value.natAbs ≠ [] := Nat.toDigits_ne_nil
    rw [printLong_eq, ← List.append_nil (Nat.toDigits 10 value.natAbs)] at hfuel ⊢
    cases fuel with
    | zero => simp [hdigits] at hfuel
    | succ fuel => exact readValue_signed _ hdigits isDigit_of_mem_toDigits hread fuel

/-- The `int` nearest to a number. -/
def toNearestInt (value : Int) : Int :=
  if value < intMin then intMin else if intMax < value then intMax else value

theorem toNearestInt_of_isInt {value : Int} (hmin : intMin ≤ value) (hmax : value ≤ intMax) :
    toNearestInt value = value := by
  rw [toNearestInt, if_neg (Int.not_lt.mpr hmin), if_neg (Int.not_lt.mpr hmax)]

theorem isInt_toNearestInt (value : Int) :
    intMin ≤ toNearestInt value ∧ toNearestInt value ≤ intMax := by
  have hrange : intMin ≤ intMax := by decide
  unfold toNearestInt
  split_ifs with hlt hgt
  · exact ⟨Int.le_refl _, hrange⟩
  · exact ⟨hrange, Int.le_refl _⟩
  · exact ⟨Int.not_lt.mp hlt, Int.not_lt.mp hgt⟩

/-- The library. -/
def printedJson : CJson Int where
  parse := JsonText.parse CNumerals.readInteger
  print := JsonText.print printLong
  ofInt value := value
  toInt := toNearestInt
  toInt64 value := value
  toInt_ofInt _ := toNearestInt_of_isInt
  toInt64_ofInt _ _ _ := rfl

theorem printedJson_parse_print {root : Json Int} (hroot : NoNul root) :
    printedJson.parse (printedJson.print root) = some root := by
  refine parse_print (fun value => ?_) hroot
  have hreads : Reads CNumerals.readInteger (printLong value) _ := reads_printLong value
  rwa [readInteger_printLong] at hreads

theorem printedJson_readsJson : printedJson.ReadsJson CNumerals.readInteger where
  reads := fun _ _ _ hparse => hparse
  integer := fun value _ _ => readInteger_printLong value
  valueint := isInt_toNearestInt

/-- A message of a client, as this library prints it. -/
example : printedJson.print (.object [("type".toList, .number 3),
    ("symbol".toList, .string "AAPL".toList)]) =
    "\x7b\n\t\"type\":\t3,\n\t\"symbol\":\t\"AAPL\"\n\x7d".toList := by decide +kernel

end QuantTrading
