/-
# What documents are read from

What is to be read is asked for: a string, a number, a list, named members, or
any value at all. A source gives an answer to each of these requests, and lists
the sources of what is inside it.

A text and a value are sources of their own. A value has been read already, and
can only be something else than what was asked for. A text is read while it is
asked, so its answers also tell what is wrong with it, at the place where it
matters; a part that is skipped only has to be well formed.

Key definitions: `Request`, `Source`, `Json.answer?`, `Json.source`,
`Json.Reading.source`.
-/
import ViewMarkup.Document.Fault
import ViewMarkup.Text.Quoted

namespace ViewMarkup

/-- How the fields of a record are given: by name, or in order. -/
inductive RecordForm
  | members
  | items

/-- What may be asked for. -/
inductive Request
  | string
  /-- A number, as the nearest double. -/
  | number
  /-- Whether anything is given but null. -/
  | given
  | value
  /-- No more than that something well formed stands here. -/
  | skip
  | list
  /-- Members, of what is called so. -/
  | members (expected : String)
  /-- A record that is called so. -/
  | record (expected : String)
  /-- The end, after as many items or members. -/
  | ended (taken : Nat)

@[reducible] def Request.Answer : Request → Type
  | string => String
  | number => Double
  | given => Bool
  | value => Json
  | skip => Unit
  | list => Unit
  | members _ => Unit
  | record _ => RecordForm
  | ended _ => Unit

/-- Something to read from. The items are those of a list, the members those of an
object, each with its key. -/
inductive Source
  | mk (answer : (q : Request) → Except DocumentFault q.Answer) (items : List Source)
      (members : List (Except DocumentFault String × Source))

namespace Source

def answer : Source → (q : Request) → Except DocumentFault q.Answer
  | mk answer _ _ => answer

def items : Source → List Source
  | mk _ items _ => items

def members : Source → List (Except DocumentFault String × Source)
  | mk _ _ members => members

end Source

namespace DocumentFault

/-- A step of reading text, as a step of reading a document. -/
def ofText {α : Type} (step : Except Json.TextFault α) : Except DocumentFault α :=
  step.mapError .text

/-- How a number is called. -/
def numberKind : Json.Number → String
  | .integer n => "integer " ++ ticked (toString n)
  | .float x => "floating point " ++ ticked (Json.Number.text (.float x))

/-- What kind of value this is. -/
def kindOf : Json → String
  | .null => "null"
  | .bool b => "boolean " ++ ticked (if b then "true" else "false")
  | .number n => numberKind n
  | .string s => "string " ++ quoted s
  | .array _ => "sequence"
  | .object _ => "map"

end DocumentFault

/-! ### Values -/

namespace Json

/-- What a value has of what may be asked for. -/
def answer? : Json → (q : Request) → Option q.Answer
  | string s, .string => some s
  | number n, .number => some n.toDouble
  | null, .given => some false
  | _, .given => some true
  | v, .value => some v
  | _, .skip => some ()
  | array _, .list => some ()
  | object _, .members _ => some ()
  | array _, .record _ => some .items
  | object _, .record _ => some .members
  | array items, .ended taken => if items.length ≤ taken then some () else none
  | object members, .ended taken => if members.length ≤ taken then some () else none
  | _, _ => none

/-- The fault of a value that has not what was asked for. -/
def refusal (v : Json) : Request → DocumentFault
  | .string => .kind (DocumentFault.kindOf v) "a string"
  | .number => .kind (DocumentFault.kindOf v) "f64"
  | .list => .kind (DocumentFault.kindOf v) "a sequence"
  | .members expected => .kind (DocumentFault.kindOf v) expected
  | .record expected => .kind (DocumentFault.kindOf v) expected
  | _ =>
    match v with
    | array items => .tooManyItems items.length
    | object members => .tooManyItems members.length
    | _ => .tooManyItems 0

def answer (v : Json) (q : Request) : Except DocumentFault q.Answer :=
  match v.answer? q with
  | some a => .ok a
  | none => .error (v.refusal q)

mutual

/-- The value as a source. -/
def source : Json → Source
  | array items => .mk (answer (array items)) (itemSources items) []
  | object members => .mk (answer (object members)) [] (memberSources members)
  | v => .mk (answer v) [] []
termination_by structural v => v

def itemSources : List Json → List Source
  | [] => []
  | v :: rest => v.source :: itemSources rest
termination_by structural items => items

def memberSources : List (String × Json) → List (Except DocumentFault String × Source)
  | [] => []
  | m :: rest => memberSource m :: memberSources rest
termination_by structural members => members

def memberSource : String × Json → Except DocumentFault String × Source
  | (key, v) => (.ok key, v.source)
termination_by structural m => m

end

/-! ### Texts -/

namespace Reading

/-- What kind of value was read. -/
def kindOf : Reading → Except TextFault String
  | null => .ok (DocumentFault.kindOf .null)
  | bool b => .ok (DocumentFault.kindOf (.bool b))
  | number n => (require n).map fun n => DocumentFault.kindOf (.number n)
  | string s => (require s).map fun s => DocumentFault.kindOf (.string s)
  | array _ _ => .ok (DocumentFault.kindOf (.array []))
  | object _ _ => .ok (DocumentFault.kindOf (.object []))
  | tooDeep inner => kindOf inner
  | broken fault => .error fault

/-- The fault of another kind than expected, unless the text has one before that. -/
def unexpected (expected : String) (r : Reading) : DocumentFault :=
  match r.kindOf with
  | .ok found => .kind found expected
  | .error fault => .text fault

/-- What the text says to what is asked of it here. -/
def answer (r : Reading) : (q : Request) → Except DocumentFault q.Answer
  | .string =>
    match r with
    | string (some s) => .ok s
    | r => .error (r.unexpected "a string")
  | .number =>
    match r with
    | number (some n) => .ok n.toDouble
    | r => .error (r.unexpected "f64")
  | .given =>
    match r with
    | null => .ok false
    | _ => .ok true
  | .value => DocumentFault.ofText r.toJson
  | .skip => DocumentFault.ofText (stop r.fault?)
  | .list =>
    match r with
    | array _ _ => .ok ()
    | tooDeep (array _ _) => .error (.text .malformed)
    | r => .error (r.unexpected "a sequence")
  | .members expected =>
    match r with
    | object _ _ => .ok ()
    | tooDeep (object _ _) => .error (.text .malformed)
    | r => .error (r.unexpected expected)
  | .record expected =>
    match r with
    | array _ _ => .ok .items
    | object _ _ => .ok .members
    | tooDeep _ => .error (.text .malformed)
    | r => .error (r.unexpected expected)
  | .ended taken =>
    match r with
    | array items fault =>
      if items.length ≤ taken then DocumentFault.ofText (stop fault) else .error (.text .malformed)
    | object members fault =>
      if members.length ≤ taken then DocumentFault.ofText (stop fault)
      else .error (.text .malformed)
    | _ => .error (.text .malformed)

mutual

/-- What was read as a source. -/
def source : Reading → Source
  | array items fault => .mk (answer (array items fault)) (itemSources items) []
  | object members fault => .mk (answer (object members fault)) [] (memberSources members)
  | r => .mk (answer r) [] []
termination_by structural r => r

def itemSources : List Reading → List Source
  | [] => []
  | r :: rest => r.source :: itemSources rest
termination_by structural items => items

def memberSources : List (Option String × Reading) → List (Except DocumentFault String × Source)
  | [] => []
  | m :: rest => memberSource m :: memberSources rest
termination_by structural members => members

def memberSource : Option String × Reading → Except DocumentFault String × Source
  | (key, r) => (DocumentFault.ofText (require key), r.source)
termination_by structural m => m

end

end Reading

/-- The text as a source, and whether nothing stands after it. -/
def textSource (text : String) : Source × Except DocumentFault Unit :=
  let read := Reading.ofText text
  (read.value.source, DocumentFault.ofText (Reading.stop read.trailing))

end Json

end ViewMarkup
