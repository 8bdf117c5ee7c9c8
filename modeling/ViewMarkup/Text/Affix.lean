/-
# Starts and ends of texts

Key definitions: `dropStart?`, `dropLast?`, `splitAt`.
-/

namespace ViewMarkup

/-- The text after `start`, if it starts so. -/
def dropStart? : List Char → List Char → Option (List Char)
  | [], cs => some cs
  | _ :: _, [] => none
  | s :: ss, c :: cs => if s = c then dropStart? ss cs else none

/-- The text before its last character, if that is `last`. -/
def dropLast? (last : Char) : List Char → Option (List Char)
  | [] => none
  | [c] => if c = last then some [] else none
  | c :: d :: cs => (dropLast? last (d :: cs)).map (c :: ·)

/-- The parts between separators; one more than there are separators. -/
def splitAt (separator : Char) : List Char → List (List Char)
  | [] => [[]]
  | c :: cs =>
    match splitAt separator cs with
    | [] => [[]]
    | part :: parts => if c = separator then [] :: part :: parts else (c :: part) :: parts

/-- The text before the first separator, and the text after it. -/
def splitOnce? (separator : Char) : List Char → Option (List Char × List Char)
  | [] => none
  | c :: cs =>
    if c = separator then some ([], cs)
    else (splitOnce? separator cs).map fun (before, after) => (c :: before, after)

end ViewMarkup
