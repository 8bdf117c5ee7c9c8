/-
# Error reports

An error that points into a text is drawn: a heading, the line of the text with
the part at fault in red, and below it an arrow to a label. Every character is
painted on its own. All other errors are reported by their message.

Columns count characters; a character may take several cells
(`cellWidth`), and a tab reaches to the next multiple of `tabStop`.

Key definitions: `MarkupError.report`, `Report.draw`.
-/
import ViewMarkup.Error
import ViewMarkup.Text.Blank
import ViewMarkup.Text.Width

namespace ViewMarkup.Report

/-- The colors of a report, as the codes of a terminal. -/
inductive Paint
  | red
  | margin
  | dimMargin
  | plain

def Paint.code : Paint → String
  | red => "31"
  | margin => "38;5;246"
  | dimMargin => "38;5;240"
  | plain => "38;5;249"

/-- The text in a color. -/
def Paint.on (paint : Paint) (text : String) : String :=
  "\x1b[" ++ paint.code ++ "m" ++ text ++ "\x1b[0m"

def tabStop : Nat := 4

/-- Ends of lines; a carriage return and a line feed are one. -/
def isLineEnd (c : Char) : Bool :=
  c = '\n' || c = '\r' || c = '\x0b' || c = '\x0c' || c = '\u0085' || c = '\u2028' || c = '\u2029'

/-- The lines of a text, each with its end. -/
def lines : List Char → List (List Char)
  | [] => []
  | '\r' :: '\n' :: rest => ['\r', '\n'] :: lines rest
  | c :: rest =>
    if isLineEnd c then [c] :: lines rest
    else match lines rest with
      | [] => [[c]]
      | line :: others => (c :: line) :: others

/-- The line that holds the character at an offset, counted from `number`: its
number, the offset at which it starts, and its characters. -/
def lineAt (number start offset : Nat) : List (List Char) → Nat × Nat × List Char
  | [] => (number, start, [])
  | [line] => (number, start, line)
  | line :: next :: rest =>
    if offset < start + line.length then (number, start, line)
    else lineAt (number + 1) (start + line.length) offset (next :: rest)

/-- What a character at a column is shown as, and in how many cells. -/
def shown (column : Nat) (c : Char) : Char × Nat :=
  if c = '\t' then (' ', (column / tabStop + 1) * tabStop - column)
  else if isBlank c then (' ', 1)
  else (c, cellWidth c)

/-- A part of a line: columns from `start` up to `stop`, and the column from
which the arrow leaves. -/
structure Mark where
  start : Nat
  stop : Nat
  middle : Nat

namespace Mark

def holds (mark : Mark) (column : Nat) : Bool := mark.start ≤ column && column < mark.stop

/-- The characters of the line, those of the part in red. -/
def lineRow (mark : Mark) (chars : List Char) : String :=
  String.join <| chars.zipIdx.map fun (c, column) =>
    let (s, width) := shown column c
    let painted := (if mark.holds column then Paint.red else Paint.plain).on s.toString
    if s = ' ' then String.join (List.replicate width painted) else painted

/-- The cells of the columns below the line up to one after the part. The first
cell of a column is drawn by `first`, the others by `other`. -/
def under (mark : Mark) (chars : List Char) (first other : Nat → String) : String :=
  String.join <| (List.range (mark.stop + 2)).map fun column =>
    let width := (chars[column]?.map fun c => (shown column c).2).getD 1
    if width = 0 then ""
    else first column ++ String.join (List.replicate (width - 1) (other column))

/-- The part underlined, with the arrow's start. -/
def underline (mark : Mark) (chars : List Char) : String :=
  mark.under chars
    (fun column =>
      if column = mark.middle then Paint.red.on (if mark.holds column then "┬" else "│")
      else if mark.holds column then Paint.red.on "─"
      else " ")
    (fun column => if mark.holds column then Paint.red.on "─" else " ")

/-- The arrow to the label. -/
def arrow (mark : Mark) (chars : List Char) : String :=
  mark.under chars
    (fun column =>
      if column = mark.middle then Paint.red.on "╰"
      else if mark.middle < column then Paint.red.on "─"
      else " ")
    (fun column => if mark.middle ≤ column then Paint.red.on "─" else " ")

end Mark

/-- A drawn report on a part of a source text. The span counts characters. -/
def draw (message filename source : String) (span : Span) (label : String) : String :=
  let heading := Paint.red.on "Error:" ++ " " ++ message ++ "\n"
  if source = "" then heading
  else
    let (number, start, line) := lineAt 1 0 span.start (lines source.toList)
    let mark : Mark :=
      ⟨span.start - start, span.stop - start, (span.start + span.stop) / 2 - start⟩
    let place := filename ++ ":" ++ toString number ++ ":" ++ toString (mark.start + 1)
    let corner := Paint.margin.on "╭" ++ Paint.margin.on "─" ++ Paint.margin.on "["
    let numbered := " " ++ Paint.margin.on (toString number ++ " │") ++ " "
    let dim := " " ++ Paint.dimMargin.on "  │" ++ " "
    heading ++
      "   " ++ corner ++ place ++ Paint.margin.on "]" ++ "\n" ++
      "   " ++ Paint.margin.on "│" ++ "\n" ++
      numbered ++ mark.lineRow (trimEnd line) ++ "\n" ++
      dim ++ mark.underline line ++ "\n" ++
      dim ++ mark.arrow line ++ " " ++ label ++ "\n" ++
      Paint.margin.on "───╯" ++ "\n"

end ViewMarkup.Report

namespace ViewMarkup

/-- The error as it is shown to a reader of the file. -/
def MarkupError.report (e : MarkupError) (filename : String) : String :=
  match e.fault with
  | .malformedFormat format (some span) text _ =>
    Report.draw e.message filename format (span.inChars format) text
  | .unterminatedExpression template offset =>
    let span : Span := ⟨offset, template.utf8ByteSize⟩
    Report.draw e.message filename template (span.inChars template) "expression is never closed"
  | _ => "Error: " ++ e.message

end ViewMarkup
