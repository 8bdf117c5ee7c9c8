/-
# JSON values

Objects keep their members in the order of their first mention; a key mentioned
again takes the later value in the earlier place (`Json.setMember`).
`Json.text` is the compact form.

Key definitions: `Json`, `Json.text`, `Json.member?`, `Json.setMember`.
-/
import ViewMarkup.Json.Number

namespace ViewMarkup

inductive Json
  | null
  | bool (b : Bool)
  | number (n : Json.Number)
  | string (s : String)
  | array (items : List Json)
  | object (members : List (String × Json))
  deriving Inhabited

namespace Json

/-- The value of a key. -/
def member? (key : String) : List (String × Json) → Option Json
  | [] => none
  | (k, v) :: rest => if k = key then some v else member? key rest

/-- Gives a key a value: in its place if the key is there, at the end if not. -/
def setMember (key : String) (value : Json) : List (String × Json) → List (String × Json)
  | [] => [(key, value)]
  | (k, v) :: rest => if k = key then (k, value) :: rest else (k, v) :: setMember key value rest

/-- The members as they were mentioned, each key once. -/
def gather (mentions : List (String × Json)) : List (String × Json) :=
  mentions.foldl (fun members m => setMember m.1 m.2 members) []

def escapeChar (c : Char) : String :=
  if c = '"' then "\\\""
  else if c = '\\' then "\\\\"
  else if c = '\x08' then "\\b"
  else if c = '\x0c' then "\\f"
  else if c = '\n' then "\\n"
  else if c = '\r' then "\\r"
  else if c = '\t' then "\\t"
  else if c.toNat < 0x20 then
    let digits := Nat.toDigits 16 c.toNat
    "\\u" ++ String.ofList (List.replicate (4 - digits.length) '0' ++ digits)
  else c.toString

/-- A string between double quotes; only quotes, backslashes and controls are
escaped. -/
def stringText (s : String) : String := "\"" ++ String.join (s.toList.map escapeChar) ++ "\""

mutual

/-- The compact text, without blanks. -/
def text : Json → String
  | null => "null"
  | bool b => if b then "true" else "false"
  | number n => n.text
  | string s => stringText s
  | array items => "[" ++ String.intercalate "," (itemTexts items) ++ "]"
  | object members => "\x7b" ++ String.intercalate "," (memberTexts members) ++ "\x7d"
termination_by structural v => v

def itemTexts : List Json → List String
  | [] => []
  | v :: rest => v.text :: itemTexts rest
termination_by structural items => items

def memberTexts : List (String × Json) → List String
  | [] => []
  | m :: rest => memberText m :: memberTexts rest
termination_by structural members => members

def memberText : String × Json → String
  | (k, v) => stringText k ++ ":" ++ v.text
termination_by structural m => m

end

/-- What a value is inserted as: a string as it stands, null as nothing, and
everything else as compact text. -/
def inserted : Json → String
  | string s => s
  | null => ""
  | v => v.text

/-- The kind of a value, as messages name it. -/
def kindName : Json → String
  | null => "null"
  | bool _ => "boolean"
  | number _ => "number"
  | string _ => "string"
  | array _ => "array"
  | object _ => "object"

end Json

end ViewMarkup
