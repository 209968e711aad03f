import QuantTrading.Utils.CMemory
import Mathlib.Algebra.Order.Ring.Int
import Mathlib.Data.Rat.Defs

/-! # JSON values

The values of the cJSON library that the protocol reads and builds. The library
itself is a parameter: how it parses a text, how it prints a value, and how it
converts between the `double` of a number and an `int`.
-/

namespace QuantTrading

/-- A `cJSON` item. Members stand in their order in the text. -/
inductive Json (α : Type) where
  | null : Json α
  | bool (value : Bool) : Json α
  | number (value : α) : Json α
  | string (value : CString) : Json α
  | array (items : List (Json α)) : Json α
  | object (members : List (CString × Json α)) : Json α

/-- The library: `cJSON_Parse` and `cJSON_Print`, the `double` of an integer, the
`valueint` of a number and its conversion to `int64_t`. A `double` holds every
integer up to `2 ^ 53`, so in particular every `int`. -/
structure CJson (α : Type) where
  parse : CString → Option (Json α)
  print : Json α → CString
  ofInt : Int → α
  toInt : α → Int
  toInt64 : α → Int
  toInt_ofInt : ∀ value, intMin ≤ value → value ≤ intMax → toInt (ofInt value) = value
  toInt64_ofInt : ∀ value, -2 ^ 53 ≤ value → value ≤ 2 ^ 53 → toInt64 (ofInt value) = value

/-- A library over exact numbers that knows some texts and prints one, for concrete
runs. -/
def CJson.table (texts : List (CString × Json ℚ)) (printed : CString) : CJson ℚ where
  parse json := texts.lookup json
  print _ := printed
  ofInt value := value
  toInt value := max intMin (min intMax (value.num.tdiv value.den))
  toInt64 value := value.num.tdiv value.den
  toInt_ofInt value hmin hmax := by
    have htruncate : (value : ℚ).num.tdiv (value : ℚ).den = value := by simp
    rw [htruncate]
    omega
  toInt64_ofInt value _ _ := by simp

namespace Json

variable {α : Type}

/-- Member names are compared without regard to case. -/
def sameName (first second : CString) : Bool :=
  first.map Char.toLower = second.map Char.toLower

/-- `cJSON_GetObjectItem`: the first member of that name. Only objects have members
with names. -/
def getObjectItem (item : Json α) (name : String) : Option (Json α) :=
  match item with
  | .object members =>
      (members.find? fun member => sameName name.toList member.1).map Prod.snd
  | _ => none

/-- The field `valuestring`, `none` when it is `NULL`. -/
def valuestring : Json α → Option CString
  | .string value => some value
  | _ => none

/-- A read through the field `valuestring`. -/
def stringValue (item : Json α) : Except Fault CString :=
  match item.valuestring with
  | some value => .ok value
  | none => .error .nullPointer

/-- The field `valueint`. The parser sets it for numbers and for `true`. -/
def valueint (cjson : CJson α) : Json α → Int
  | .number value => cjson.toInt value
  | .bool true => 1
  | _ => 0

/-- The field `valuedouble`. -/
def valuedouble (cjson : CJson α) : Json α → α
  | .number value => value
  | _ => cjson.ofInt 0

/-- `cJSON_IsTrue`. -/
def isTrue : Json α → Bool
  | .bool value => value
  | _ => false

/-- The children of an item: `cJSON_GetArraySize` counts them and
`cJSON_GetArrayItem` indexes them, for objects as for arrays. -/
def children : Json α → List (Json α)
  | .array items => items
  | .object members => members.map Prod.snd
  | _ => []

/-- The members that are strings hold no NUL: a `valuestring` is a C string. -/
def PlainStrings (item : Json α) : Prop :=
  ∀ name text, item.getObjectItem name = some (.string text) → nul ∉ text

theorem plainStrings_object {members : List (CString × Json α)}
    (hmembers : ∀ member ∈ members, ∀ text ∈ member.2.valuestring, nul ∉ text) :
    (Json.object members).PlainStrings := by
  intro name text hitem
  obtain ⟨member, hfind, hvalue⟩ := Option.map_eq_some_iff.mp hitem
  apply hmembers member (List.mem_of_find?_eq_some hfind) text
  rw [hvalue]
  rfl

end Json

end QuantTrading
