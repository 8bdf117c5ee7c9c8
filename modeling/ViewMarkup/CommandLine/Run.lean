/-
# Running a command

A command renders a document and prints its views and its constraints, then, as
asked for, its frames, and for every change of data what becomes of the live
attributes. Configuration, document and data are read in this order, and what
cannot be read ends the run.

A run is a function: files are given by a function from names, and what is
printed is part of the result.

Key definitions: `Output`, `FileFault`, `run`.
-/
import ViewMarkup.CommandLine.Arguments
import ViewMarkup.Layout.Frames
import ViewMarkup.Rendered
import ViewMarkup.Report
import ViewMarkup.View.Standard

namespace ViewMarkup

/-- What a run leaves: its exit code and what it has printed. -/
structure Output where
  code : Nat := 0
  out : String := ""
  err : String := ""
  deriving DecidableEq

/-- Why a file cannot be read. -/
inductive FileFault
  | missing
  | directory
  | notText
  | other (reason : String)

namespace FileFault

def message : FileFault → String
  | missing => "No such file or directory (os error 2)"
  | directory => "Is a directory (os error 21)"
  | notText => "stream did not contain valid UTF-8"
  | other reason => reason

end FileFault

namespace Output

/-- Ends a run with a message. -/
def fail (o : Output) (message : String) : Output :=
  { o with code := 1, err := o.err ++ "Error: " ++ message ++ "\n" }

def print (o : Output) (text : String) : Output := { o with out := o.out ++ text }

def complain (o : Output) (text : String) : Output := { o with err := o.err ++ text }

end Output

/-- Where a command reads from. -/
structure Sources where
  file : String → Except FileFault String
  input : String

/-- What a command works on. -/
structure Inputs where
  filename : String
  config : Config
  document : String
  data : Json

namespace Inputs

def readConfig (sources : Sources) : Option String → Except String Config
  | none => .ok {}
  | some path => (source path).mapError fun reason => "loading config '" ++ path ++ "': " ++ reason
where
  source (path : String) : Except String Config :=
    match sources.file path with
    | .error fault => .error ("Failed to read config file: " ++ fault.message)
    | .ok text => (Config.ofText text).mapError ConfigFault.message

def readDocument (sources : Sources) : Option String → Except String (String × String)
  | none => .ok ("<stdin>", sources.input)
  | some path =>
    match sources.file path with
    | .error fault => .error ("reading file '" ++ path ++ "': " ++ fault.message)
    | .ok text => .ok (path, text)

def readData (sources : Sources) : Option String → Except String Json
  | none => .ok (.object [])
  | some path =>
    let failed (reason : String) : String := "reading data '" ++ path ++ "': " ++ reason
    match sources.file path with
    | .error fault => .error (failed fault.message)
    | .ok text => (Json.ofText text).mapError fun fault => failed (DocumentFault.text fault).message

/-- Reads everything that a command needs; a reason if that fails. -/
def read (sources : Sources) (arguments : Arguments) : Except String Inputs := do
  let config ← readConfig sources arguments.config
  let (filename, document) ← readDocument sources arguments.document
  let data ← readData sources arguments.data
  return ⟨filename, config, document, data⟩

end Inputs

/-- The lines of rendered views and constraints. -/
def renderedText {V : Type} (r : Rendered V) : String :=
  "views:\n" ++ r.tree.outline ++ "constraints:\n" ++
    String.join (r.constraints.map fun d => "  " ++ d.text ++ "\n")

/-- The lines of solved frames. -/
def framesText (frames : Frames) : String :=
  "frames:\n" ++ String.join (frames.frames.map fun (id, r) =>
    "  " ++ id ++ ": x=" ++ r.x.text ++ " y=" ++ r.y.text ++ " w=" ++ r.width.text ++
      " h=" ++ r.height.text ++ "\n")

/-- Prints what became of a live attribute. -/
def printUpdate (filename : String) (o : Output) (result : Except MarkupError BindingUpdate) :
    Output :=
  match result with
  | .error e => o.complain (e.report filename)
  | .ok update =>
    let outcome := if update.changed then " = " ++ quoted update.value else " unchanged"
    o.print ("  " ++ update.target.text ++ "." ++ update.property ++ outcome ++ "\n")

/-- A path and the value it is to get. What is not JSON is taken as a string. -/
def parseChange (text : String) : Except String (String × Json) :=
  match splitOnce? '=' text.toList with
  | none => .error ("--set expects PATH=JSON, got '" ++ text ++ "'")
  | some (path, raw) =>
    let raw := String.ofList raw
    .ok (String.ofList path, (Json.ofText raw).toOption.getD (.string raw))

/-- The data with a value at a path. -/
def changedData (data : Json) (root path : String) (value : Json) : Except String Json :=
  ((Path.parse path).map fun p => Json.write value (p.relative root) data).mapError
    MarkupError.message

/-- Makes changes to the data, one after the other, and announces each. -/
def runChanges {V : Type} (inputs : Inputs) : Rendered V → Json → Output → List String → Output
  | _, _, o, [] => o
  | r, data, o, change :: rest =>
    let next : Except String (String × Json) := do
      let (path, value) ← parseChange change
      return (path, ← changedData data inputs.config.root path value)
    match next with
    | .error reason => o.fail reason
    | .ok (path, data) =>
      let (results, r) := r.invalidate path data.lookup
      let o := results.foldl (printUpdate inputs.filename) (o.print ("set " ++ path ++ ":\n"))
      runChanges inputs r data o rest

/-- Renders the document of the inputs. -/
def renderInputs (inputs : Inputs) : Except MarkupError (Rendered StandardView) := do
  let doc ← (Document.ofText inputs.document).mapError fun fault => { fault := .document fault }
  render .standard inputs.config doc inputs.data.lookup

/-- Does what the arguments ask for. -/
def runArguments (arguments : Arguments) (inputs : Inputs) : Output :=
  match renderInputs inputs with
  | .error e => { code := 1, err := e.report inputs.filename }
  | .ok r =>
    let o : Output := { out := renderedText r }
    match arguments.size with
    | none => runChanges inputs r inputs.data o arguments.changes
    | some (width, height) =>
      match solveFrames simplex r.tree r.ids r.constraints width height with
      | .error fault => o.fail fault.message
      | .ok frames =>
        runChanges inputs r inputs.data (o.print (framesText frames)) arguments.changes

/-- Runs a command. -/
def run (words : List String) (sources : Sources) : Output :=
  match Arguments.parse words with
  | .error .help => { out := Arguments.usage }
  | .error .invalid => { code := 2 }
  | .ok arguments =>
    match Inputs.read sources arguments with
    | .error reason => ({} : Output).fail reason
    | .ok inputs => runArguments arguments inputs

end ViewMarkup
