/-
# The program

Reads the files that the arguments name, and standard input when no document is
named, and runs the command.
-/
import ViewMarkup.CommandLine.Run

namespace ViewMarkup

/-- The content of a file, or why there is none. -/
def readFile (path : String) : IO (Except FileFault String) := do
  try
    let bytes ← IO.FS.readBinFile path
    match String.fromUTF8? bytes with
    | some text => return .ok text
    | none => return .error .notText
  catch
    | .noFileOrDirectory .. => return .error .missing
    | .inappropriateType .. => return .error .directory
    | e => return .error (.other (toString e))

/-- The files that may be read, with their content. -/
def readFiles (names : List String) : IO (List (String × Except FileFault String)) :=
  names.mapM fun name => return (name, ← readFile name)

/-- What a command reads, once its arguments are known. -/
def readSources (words : List String) : IO Sources := do
  match Arguments.parse words with
  | .error _ => return ⟨fun _ => .error .missing, ""⟩
  | .ok arguments =>
    let names := [arguments.config, arguments.document, arguments.data].filterMap id
    let files ← readFiles names
    let input ← if arguments.document.isSome then pure "" else (← IO.getStdin).readToEnd
    return ⟨fun name => (files.lookup name).getD (.error .missing), input⟩

end ViewMarkup

def main (words : List String) : IO UInt32 := do
  let o := ViewMarkup.run words (← ViewMarkup.readSources words)
  IO.print o.out
  IO.eprint o.err
  return o.code.toUInt32
