/-
# Configuration values

The values a configuration file holds, and how typed fields are taken from
them.

Key definitions: `Toml.Value`, `Toml.Value.field?`.
-/
import ViewMarkup.Numeric.Reading

namespace ViewMarkup.Toml

inductive Value
  | string (s : String)
  | integer (n : Int)
  | float (x : Double)
  | boolean (b : Bool)
  | datetime
  | array (items : List Value)
  | table (entries : List (String × Value))
  deriving Inhabited

namespace Value

/-- A field of a record, which is written as a table with the field's name or as
an array with the field's place. -/
def field? (record : Value) (name : String) (place : Nat) : Option Value :=
  match record with
  | table entries => entries.lookup name
  | array items => items[place]?
  | _ => none

/-- Whether a value can stand for a record with this many fields; the fields of
an array have to be there. -/
def isRecord (record : Value) (required : Nat) : Bool :=
  match record with
  | table _ => true
  | array items => required ≤ items.length
  | _ => false

def string? : Value → Option String
  | string s => some s
  | _ => none

/-- A number as a double. -/
def double? : Value → Option Double
  | integer n => some (.ofInt .double n)
  | float x => some x
  | _ => none

/-- A table all of whose values are strings. -/
def strings? : Value → Option (List (String × String))
  | table entries => entries.mapM fun (key, value) => value.string?.map (key, ·)
  | _ => none

/-- Reads a field that may be left out; none if it is there and does not read. -/
def optional {α : Type} (read : Value → Option α) : Option Value → Option (Option α)
  | none => some none
  | some v => (read v).map some

end Value

end ViewMarkup.Toml
