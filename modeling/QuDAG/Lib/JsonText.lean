import QuDAG.Lib.Hex
import QuDAG.Lib.Json

/-!
# The text of a JSON value

A text is written between quotation marks, with an escape for each quotation mark, backslash and
control character. Nothing else is escaped and no spaces are written. The text of a number is a
parameter.

## Main definitions

* `Json.stringify` — the text of a value.
* `Json.set`, `Json.without` — replace or append a member, and remove one.
* `JsonText.escaped` — a text with its escapes.

## Main results

* `Json.without_set` — members with different names are replaced and removed independently.
* `JsonText.escaped_repeated` — the escapes of a repeated text.
-/

namespace JsonText

/-- A character, or its escape. -/
def escape (c : Char) : List Char :=
  match c.toNat with
  | 0x08 => "\\b".toList
  | 0x09 => "\\t".toList
  | 0x0a => "\\n".toList
  | 0x0c => "\\f".toList
  | 0x0d => "\\r".toList
  | 0x22 => "\\\"".toList
  | 0x5c => "\\\\".toList
  | code => if code < 0x20 then "\\u00".toList ++ Hex.digits [UInt8.ofNat code] else [c]

/-- A text with its escapes. -/
def escaped (text : String) : String := String.ofList (text.toList.flatMap escape)

/-- A text between quotation marks. -/
def quote (text : String) : String := "\"" ++ escaped text ++ "\""

/-- The escapes of a concatenation. -/
@[simp] lemma escaped_append (s t : String) : escaped (s ++ t) = escaped s ++ escaped t := by
  rw [escaped, String.toList_append, List.flatMap_append, String.ofList_append]
  rfl

/-- A text that is written a number of times. -/
def repeated (n : ℕ) (text : String) : String :=
  match n with
  | 0 => ""
  | n + 1 => text ++ repeated n text

/-- The escapes of a repeated text. -/
lemma escaped_repeated (n : ℕ) (text : String) :
    escaped (repeated n text) = repeated n (escaped text) := by
  induction n with
  | zero => rfl
  | succ n ih => rw [repeated, escaped_append, ih, repeated]

end JsonText

namespace Json

open JsonText

mutual

/-- The text of a value. -/
def stringify (number : ℚ → String) : Json → String
  | .null => "null"
  | .bool value => if value then "true" else "false"
  | .number value => number value
  | .string text => quote text
  | .array items => "[" ++ ",".intercalate (itemTexts number items) ++ "]"
  | .object members => "\x7b" ++ ",".intercalate (memberTexts number members) ++ "\x7d"

/-- The texts of the items of an array. -/
def itemTexts (number : ℚ → String) : List Json → List String
  | [] => []
  | item :: items => stringify number item :: itemTexts number items

/-- The texts of the members of an object. -/
def memberTexts (number : ℚ → String) : List (String × Json) → List String
  | [] => []
  | (name, value) :: members =>
    (quote name ++ ":" ++ stringify number value) :: memberTexts number members

end

/-- Replace the member with a name, or append one. -/
def set (name : String) (value : Json) : List (String × Json) → List (String × Json)
  | [] => [(name, value)]
  | member :: members =>
    if member.1 = name then (name, value) :: members else member :: set name value members

/-- The members without the one with a name. -/
def without (name : String) (members : List (String × Json)) : List (String × Json) :=
  members.filter fun member => member.1 != name

/-- A member that was set is found. -/
lemma lookup_set_self (name : String) (value : Json) (members : List (String × Json)) :
    (set name value members).lookup name = some value := by
  induction members with
  | nil => simp [set]
  | cons member members ih =>
    obtain ⟨key, old⟩ := member
    rw [set]
    split
    · simp
    · rename_i hne
      have hname : (name == key) = false := by simpa using Ne.symm hne
      simp only [List.lookup_cons, hname]
      exact ih

/-- The other members are as before. -/
lemma lookup_set_of_ne {name other : String} (hne : other ≠ name) (value : Json)
    (members : List (String × Json)) :
    (set name value members).lookup other = members.lookup other := by
  induction members with
  | nil => simp [set, hne]
  | cons member members ih =>
    obtain ⟨key, old⟩ := member
    rw [set]
    split
    · rename_i heq
      have hother : (other == key) = false := by simpa [show key = name from heq] using hne
      have hname : (other == name) = false := by simpa using hne
      simp only [List.lookup_cons, hother, hname]
    · simp only [List.lookup_cons, ih]

/-- Setting a member does not matter if it is removed. -/
lemma without_set_self (name : String) (value : Json) (members : List (String × Json)) :
    without name (set name value members) = without name members := by
  induction members with
  | nil => simp [set, without]
  | cons member members ih =>
    rw [set]
    split
    · rename_i heq
      simp [without, heq]
    · simp only [without, List.filter_cons] at ih ⊢
      rw [ih]

/-- Members with different names are replaced and removed independently. -/
lemma without_set {name other : String} (hne : other ≠ name) (value : Json)
    (members : List (String × Json)) :
    without name (set other value members) = set other value (without name members) := by
  induction members with
  | nil => simp [set, without, hne]
  | cons member members ih =>
    have hother : (other != name) = true := by simpa using hne
    by_cases heq : member.1 = other
    · simp [set, without, heq, hne]
    · simp only [set, without, List.filter_cons, if_neg heq] at ih ⊢
      split
      · rw [ih, set, if_neg heq]
      · exact ih

/-- A member that was set is there. -/
lemma mem_set (name : String) (value : Json) (members : List (String × Json)) :
    (name, value) ∈ set name value members := by
  induction members with
  | nil => simp [set]
  | cons member members ih =>
    rw [set]
    split
    · exact List.mem_cons_self
    · exact List.mem_cons_of_mem _ ih

end Json
