/-
# Command line arguments

Arguments are taken one after the other. A word that starts with a dash names
options, in a short form of single letters or in a long form; an option that
wants a value takes it from the rest of the word, after an equals sign or
without one, or else from the next word, which may not itself start with a
dash. Two dashes end the options. The first request for help and the first word
that does not fit decide.

Key definitions: `Arguments`, `Arguments.parse`, `UsageFault`.
-/
import ViewMarkup.Numeric.Reading
import ViewMarkup.Text.Affix
import ViewMarkup.Text.Blank

namespace ViewMarkup

/-- What is asked for. -/
structure Arguments where
  document : Option String := none
  data : Option String := none
  config : Option String := none
  size : Option (Double × Double) := none
  changes : List String := []
  verbosity : Nat := 0

/-- Why there is nothing to run. -/
inductive UsageFault
  | help
  | invalid
  deriving DecidableEq

/-- The options that want a value. -/
inductive ValueOption
  | data
  | config
  | size
  | change
  deriving DecidableEq

inductive CommandOption
  | value (option : ValueOption)
  | verbose
  | help

/-- A width and a height, between which the first `x` stands. -/
def parseSize (text : String) : Option (Double × Double) := do
  let (width, height) ← splitOnce? 'x' text.toList
  return (← double? (trimText (String.ofList width)), ← double? (trimText (String.ofList height)))

namespace CommandOption

def ofShort? : Char → Option CommandOption
  | 'd' => some (.value .data)
  | 'c' => some (.value .config)
  | 's' => some (.value .size)
  | 'v' => some .verbose
  | 'h' => some .help
  | _ => none

def ofLong? : String → Option CommandOption
  | "data" => some (.value .data)
  | "config" => some (.value .config)
  | "solve" => some (.value .size)
  | "set" => some (.value .change)
  | "verbose" => some .verbose
  | "help" => some .help
  | _ => none

end CommandOption

namespace Arguments

/-- Fills in what may be there once and is not empty. -/
def once (old : Option String) (text : String) : Except UsageFault (Option String) :=
  if old.isSome || text.isEmpty then .error .invalid else .ok (some text)

/-- Takes up the value of an option. -/
def setValue (a : Arguments) (option : ValueOption) (text : String) :
    Except UsageFault Arguments :=
  match option with
  | .data => do return { a with data := ← once a.data text }
  | .config => do return { a with config := ← once a.config text }
  | .size =>
    match a.size, parseSize text with
    | none, some size => .ok { a with size := some size }
    | _, _ => .error .invalid
  | .change => .ok { a with changes := a.changes ++ [text] }

/-- What a word has done: the arguments so far, and the option that waits for the
next word if there is one. -/
abbrev Step := Except UsageFault (Arguments × Option ValueOption)

/-- Takes up the letters of a word. -/
def shortOptions (a : Arguments) : List Char → Step
  | [] => .ok (a, none)
  | c :: cs =>
    match CommandOption.ofShort? c with
    | some .verbose => shortOptions { a with verbosity := a.verbosity + 1 } cs
    | some .help => .error .help
    | some (.value option) =>
      match cs with
      | [] => .ok (a, some option)
      | '=' :: text => (a.setValue option (String.ofList text)).map (·, none)
      | text => (a.setValue option (String.ofList text)).map (·, none)
    | none => .error .invalid

/-- Takes up a long option, with the value after its equals sign. -/
def longOption (a : Arguments) (cs : List Char) : Step :=
  let (name, attached) :=
    match splitOnce? '=' cs with
    | some (name, text) => (name, some (String.ofList text))
    | none => (cs, none)
  match CommandOption.ofLong? (String.ofList name), attached with
  | some .verbose, none => .ok ({ a with verbosity := a.verbosity + 1 }, none)
  | some .help, none => .error .help
  | some (.value option), some text => (a.setValue option text).map (·, none)
  | some (.value option), none => .ok (a, some option)
  | _, _ => .error .invalid

def positional (a : Arguments) (text : String) : Except UsageFault Arguments := do
  return { a with document := ← once a.document text }

/-- Takes up words, `waiting` being the option that wants the next one. -/
def parseFrom (a : Arguments) (waiting : Option ValueOption) :
    List String → Except UsageFault Arguments
  | [] => if waiting.isSome then .error .invalid else .ok a
  | word :: rest =>
    match word.toList, waiting with
    | '-' :: '-' :: [], none => rest.foldlM positional a
    | '-' :: '-' :: cs, none => do
      let (a, waiting) ← a.longOption cs
      parseFrom a waiting rest
    | '-' :: c :: cs, none => do
      let (a, waiting) ← a.shortOptions (c :: cs)
      parseFrom a waiting rest
    | '-' :: _ :: _, some _ => .error .invalid
    | _, some option => do
      let a ← a.setValue option word
      parseFrom a none rest
    | _, none => do
      let a ← a.positional word
      parseFrom a none rest

/-- The arguments that the words ask for. -/
def parse (words : List String) : Except UsageFault Arguments := parseFrom {} none words

/-- How the program is called. -/
def usage : String :=
  String.intercalate "\n"
    ["Build view hierarchies from JSON markup", "",
     "Usage: viewmarkup [OPTIONS] [INPUT]", "",
     "Arguments:",
     "  [INPUT]  Document file (reads from stdin if not provided)", "",
     "Options:",
     "  -d, --data <DATA>      JSON data object that templates read from",
     "  -c, --config <CONFIG>  Render configuration file (TOML format)",
     "  -s, --solve <SOLVE>    Solve frames in a WIDTHxHEIGHT container, e.g. 320x480",
     "      --set <PATH=JSON>  Set PATH to a JSON value after rendering, then invalidate it",
     "  -v, --verbose...       Increase log verbosity",
     "  -h, --help             Print help", ""]

end Arguments

end ViewMarkup
