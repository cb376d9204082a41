import Mathlib.Data.List.Basic
import Mathlib.Data.Rat.Defs

/-!
# JSON values

The values that a JSON text stands for. The members of an object are kept in the order in which a
program sees them, with different names.

## Main definitions

* `Json` — JSON values.
* `Json.get` — the member of an object with a name.
* `Json.asStr`, `Json.asNumber`, `Json.asArray`, `Json.asObject` — the content of a value of a kind.
-/

/-- A JSON value. -/
inductive Json
  | null
  | bool (value : Bool)
  | number (value : ℚ)
  | string (value : String)
  | array (items : List Json)
  | object (members : List (String × Json))

namespace Json

/-- The member with a name, if the value is an object that has one. -/
def get (name : String) : Json → Option Json
  | .object members => members.lookup name
  | _ => none

/-- The text of a value that is one. -/
def asStr : Json → Option String
  | .string value => some value
  | _ => none

/-- The number of a value that is one. -/
def asNumber : Json → Option ℚ
  | .number value => some value
  | _ => none

/-- The items of a value that is an array. -/
def asArray : Json → Option (List Json)
  | .array items => some items
  | _ => none

/-- The members of a value that is an object. -/
def asObject : Json → Option (List (String × Json))
  | .object members => some members
  | _ => none

/-- Whether a value counts as true in a condition. -/
def truthy : Json → Bool
  | .null => false
  | .bool value => value
  | .number value => value != 0
  | .string value => value != ""
  | .array _ => true
  | .object _ => true

/-- Only a text has a text. -/
lemma asStr_eq_some {value : Json} {text : String} :
    value.asStr = some text ↔ value = .string text := by
  cases value <;> simp [asStr]

/-- Only a number has a number. -/
lemma asNumber_eq_some {value : Json} {number : ℚ} :
    value.asNumber = some number ↔ value = .number number := by
  cases value <;> simp [asNumber]

/-- Only an array has items. -/
lemma asArray_eq_some {value : Json} {items : List Json} :
    value.asArray = some items ↔ value = .array items := by
  cases value <;> simp [asArray]

end Json
