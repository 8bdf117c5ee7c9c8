/-
# Data sources

The data object that templates are composed from is only looked into: a source
answers the value at a list of segments below its root, the whole object at
none. A JSON value is a source, objects by key and arrays by index, and so is a
table whose keys are joined segments.

Key definitions: `DataSource`, `Json.lookup`, `Json.write`,
`DataSource.ofTable`.
-/
import ViewMarkup.Json.Basic

namespace ViewMarkup

-- Powers are the core library's, whatever else is in scope.
attribute [local instance (high)] instPowNat

abbrev DataSource := List String → Option Json

/-- The index that a segment of decimal digits stands for, if it fits a word. -/
def arrayIndex? (segment : String) : Option Nat :=
  let cs := segment.toList
  if !cs.isEmpty && cs.all Char.isDigit && digitsValue cs < 2 ^ (64 : Nat) then
    some (digitsValue cs)
  else none

namespace Json

/-- The value one segment below. -/
def step? : Json → String → Option Json
  | object members, segment => member? segment members
  | array items, segment => (arrayIndex? segment).bind (items[·]?)
  | _, _ => none

/-- The value at the end of the segments. -/
def lookup : Json → DataSource
  | v, [] => some v
  | v, segment :: rest => (v.step? segment).bind (lookup · rest)

/-- The members of an object; what is none has no members. -/
def membersOf : Json → List (String × Json)
  | object members => members
  | _ => []

/-- Puts a value at the end of the segments. What stands in the way and is not
an object is replaced by one. -/
def write (value : Json) : List String → Json → Json
  | [], _ => value
  | segment :: rest, v =>
    let inner := (member? segment v.membersOf).getD null
    object (setMember segment (write value rest inner) v.membersOf)

end Json

/-- The source that looks joined segments up in a table. -/
def DataSource.ofTable (table : List (String × Json)) : DataSource := fun segments =>
  Json.member? (String.intercalate "." segments) table

end ViewMarkup
