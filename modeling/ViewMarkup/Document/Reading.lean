/-
# Reading documents

A document is read from a source, part by part in the order given there, and the
first part that does not fit ends it. An object is read member by member: a
field that comes twice is refused at its second key, a field that is missing at
the end of the object. A node's own keys start with `@`; every other key is an
attribute. A document and a constraint spec may also be written as the array of
their fields.

What is asked for is the same whatever the source: `Document.readText` and
`Document.readValue` read from any source of texts and of values,
`Document.ofText` and `Document.ofJson` from the two there are.

Key definitions: `Node.ofSource`, `ConstraintSpec.ofSource`,
`Document.ofSource`, `Document.readText`, `Document.readValue`,
`Document.ofText`, `Document.ofJson`.
-/
import ViewMarkup.Document.Basic
import ViewMarkup.Document.Source

namespace ViewMarkup

namespace DocumentFault

/-- A field may not come twice. -/
def once {α : Type} (name : String) : Option α → Except DocumentFault Unit
  | none => .ok ()
  | some _ => .error (.repeatedField name)

/-- A field that has to be there. -/
def present {α : Type} (name : String) : Option α → Except DocumentFault α
  | some a => .ok a
  | none => .error (.missingField name)

end DocumentFault

open DocumentFault (once present)

namespace Source

/-- A string. -/
def asString (s : Source) : Except DocumentFault String := s.answer .string

/-- A string, or null for none. -/
def asOptionalString (s : Source) : Except DocumentFault (Option String) := do
  if ← s.answer .given then return some (← s.asString) else return none

/-- A number, as the nearest double. -/
def asDouble (s : Source) : Except DocumentFault Double := s.answer .number

/-- A list of values of one type. -/
def asList {α : Type} (item : Source → Except DocumentFault α) (s : Source) :
    Except DocumentFault (List α) := do
  s.answer .list
  let values ← s.items.mapM item
  s.answer (.ended s.items.length)
  return values

/-- Takes up one number under its name. -/
def addNumber (numbers : List (String × Double)) (member : Except DocumentFault String × Source) :
    Except DocumentFault (List (String × Double)) := do
  let name ← member.1
  let x ← member.2.asDouble
  return numbers.filter (fun entry => entry.1 ≠ name) ++ [(name, x)]

/-- Numbers by their names. Of two under one name the later counts. -/
def asNumbers (s : Source) : Except DocumentFault (List (String × Double)) := do
  s.answer (.members "a map")
  let numbers ← s.members.foldlM addNumber []
  s.answer (.ended s.members.length)
  return numbers

end Source

namespace Node

def kindKey : String := "@isa"
def idKey : String := "@id"
def childrenKey : String := "@subviews"

/-- What has been read of a node. -/
structure Fields where
  kind : Option String := none
  id : Option (Option String) := none
  children : Option (List Node) := none
  attributes : List (String × Json) := []

/-- The node of the fields. -/
def ofFields (fields : Fields) : Except DocumentFault Node := do
  let kind ← present kindKey fields.kind
  return .mk kind (fields.id.getD none) fields.attributes (fields.children.getD [])

mutual

/-- A node. -/
def ofSource : Source → Except DocumentFault Node
  | .mk answer _ members => do
    answer (.members "struct Node")
    let fields ← readFields members {}
    answer (.ended members.length)
    ofFields fields
termination_by structural s => s

/-- The members of a node, one after the other. -/
def readFields : List (Except DocumentFault String × Source) → Fields → Except DocumentFault Fields
  | [], fields => .ok fields
  | m :: rest, fields => do
    let fields ← readField m fields
    readFields rest fields
termination_by structural members => members

/-- Takes up one member. -/
def readField : Except DocumentFault String × Source → Fields → Except DocumentFault Fields
  | (.error fault, _), _ => .error fault
  | (.ok key, s), fields =>
    if key = kindKey then do
      once key fields.kind
      let kind ← s.asString
      return { fields with kind := some kind }
    else if key = idKey then do
      once key fields.id
      let id ← s.asOptionalString
      return { fields with id := some id }
    else if key = childrenKey then do
      once key fields.children
      let children ← readChildren s
      return { fields with children := some children }
    else do
      let v ← s.answer .value
      return { fields with attributes := Json.setMember key v fields.attributes }
termination_by structural m => m

/-- The list of a node's children. -/
def readChildren : Source → Except DocumentFault (List Node)
  | .mk answer items _ => do
    answer .list
    let nodes ← readAll items
    answer (.ended items.length)
    return nodes
termination_by structural s => s

/-- Nodes, one after the other. -/
def readAll : List Source → Except DocumentFault (List Node)
  | [] => .ok []
  | s :: rest => do
    let node ← ofSource s
    let nodes ← readAll rest
    return node :: nodes
termination_by structural items => items

end

end Node

namespace ConstraintSpec

/-- What has been read of a spec. -/
structure Fields where
  format : Option String := none
  options : Option (List String) := none
  metrics : Option (List (String × Double)) := none

def fieldNames : List String := ["format", "options", "metrics"]

/-- How a spec is called where an array for it is too short. -/
def arrayName : String := "struct ConstraintSpec with 3 elements"

def readOptions (s : Source) : Except DocumentFault (List String) := s.asList Source.asString

/-- Takes up one member. -/
def readField (fields : Fields) :
    Except DocumentFault String × Source → Except DocumentFault Fields
  | (.error fault, _) => .error fault
  | (.ok key, s) =>
    if key = "format" then do
      once key fields.format
      let format ← s.asString
      return { fields with format := some format }
    else if key = "options" then do
      once key fields.options
      let options ← readOptions s
      return { fields with options := some options }
    else if key = "metrics" then do
      once key fields.metrics
      let metrics ← s.asNumbers
      return { fields with metrics := some metrics }
    else .error (.unknownField key fieldNames)

/-- The spec of the fields. -/
def ofFields (fields : Fields) : Except DocumentFault ConstraintSpec := do
  let format ← present "format" fields.format
  return ⟨format, fields.options.getD [], fields.metrics.getD []⟩

/-- The spec of an array of the fields. An array without items is known to be too short
when it has ended. -/
def ofItems (ended : Except DocumentFault Unit) : List Source → Except DocumentFault ConstraintSpec
  | [] => do
    ended
    .error (.tooFewItems 0 arrayName)
  | [format] => do
    return ⟨← format.asString, [], []⟩
  | [format, options] => do
    return ⟨← format.asString, ← readOptions options, []⟩
  | format :: options :: metrics :: _ => do
    return ⟨← format.asString, ← readOptions options, ← metrics.asNumbers⟩

/-- A spec, as an object or as an array. -/
def ofSource (s : Source) : Except DocumentFault ConstraintSpec := do
  match ← s.answer (.record "struct ConstraintSpec") with
  | .members =>
    let fields ← s.members.foldlM readField {}
    s.answer (.ended s.members.length)
    ofFields fields
  | .items =>
    let spec ← ofItems (s.answer (.ended 0)) s.items
    s.answer (.ended 3)
    return spec

end ConstraintSpec

namespace Document

def layoutKey : String := "@layout"
def constraintsKey : String := "@constraints"

/-- What has been read of a document. -/
structure Fields where
  layout : Option (List Node) := none
  constraints : Option (List ConstraintSpec) := none

def readConstraints (s : Source) : Except DocumentFault (List ConstraintSpec) :=
  s.asList ConstraintSpec.ofSource

/-- Takes up one member. What has no meaning in a document only has to be well
formed. -/
def readField (fields : Fields) :
    Except DocumentFault String × Source → Except DocumentFault Fields
  | (.error fault, _) => .error fault
  | (.ok key, s) =>
    if key = layoutKey then do
      once key fields.layout
      let layout ← Node.readChildren s
      return { fields with layout := some layout }
    else if key = constraintsKey then do
      once key fields.constraints
      let constraints ← readConstraints s
      return { fields with constraints := some constraints }
    else do
      s.answer .skip
      return fields

/-- The document of an array of the fields. -/
def ofItems : List Source → Except DocumentFault Document
  | [] => .ok ⟨[], []⟩
  | [layout] => do
    return ⟨← Node.readChildren layout, []⟩
  | layout :: constraints :: _ => do
    return ⟨← Node.readChildren layout, ← readConstraints constraints⟩

/-- A document, as an object or as an array. -/
def ofSource (s : Source) : Except DocumentFault Document := do
  match ← s.answer (.record "struct Document") with
  | .members =>
    let fields ← s.members.foldlM readField {}
    s.answer (.ended s.members.length)
    return ⟨fields.layout.getD [], fields.constraints.getD []⟩
  | .items =>
    let doc ← ofItems s.items
    s.answer (.ended 2)
    return doc

/-- The document that a value is, for some way of reading values. -/
def readValue (source : Json → Source) (v : Json) : Except DocumentFault Document :=
  ofSource (source v)

/-- The document that a text is, for some way of reading texts: nothing may stand
after it. -/
def readText (source : String → Source × Except DocumentFault Unit) (text : String) :
    Except DocumentFault Document := do
  let (source, ending) := source text
  let doc ← ofSource source
  ending
  return doc

/-- The document that a value is. -/
def ofJson (v : Json) : Except DocumentFault Document := readValue Json.source v

/-- The document that a text is. -/
def ofText (text : String) : Except DocumentFault Document := readText Json.textSource text

end Document

end ViewMarkup
