/-
# Templates

A template is text with expressions between `#{` and the brace that balances
it. An expression is a path, read once when the template is composed, or a path
in `@bind(...)`, which also makes the template live: it is composed anew
whenever that path is said to have changed.

Key definitions: `Template`, `Template.parse`, `Template.compose`,
`Expression.parse`.
-/
import ViewMarkup.Template.Path

namespace ViewMarkup

/-- Whether an expression is followed after it was composed. -/
inductive BindMode
  | explicit
  | implicit
  deriving DecidableEq

structure Expression where
  path : Path
  mode : BindMode
  /-- From the opening `#` to the closing brace. -/
  span : Span
  deriving DecidableEq

/-- How a call that binds a path starts. -/
def bindCall : List Char := "@bind(".toList

namespace Expression

/-- Reads what stands between the braces. -/
def parse (body : List Char) (span : Span) : Except MarkupError Expression :=
  let body := trim body
  match dropStart? bindCall body with
  | some call =>
    match dropLast? ')' call with
    | some inner => (Path.parse (String.ofList inner)).map fun path => ⟨path, .explicit, span⟩
    | none =>
      .error (.unresolved (String.ofList body) "malformed @bind call, expected @bind(path)")
  | none => (Path.parse (String.ofList body)).map fun path => ⟨path, .implicit, span⟩

def isExplicit (e : Expression) : Bool := e.mode = .explicit

end Expression

/-- A piece of a template. -/
inductive Segment
  | literal (text : String)
  | expression (e : Expression)
  deriving DecidableEq

def Segment.expression? : Segment → Option Expression
  | literal _ => none
  | expression e => some e

structure Template where
  source : String
  segments : List Segment
  deriving DecidableEq

namespace Template

/-- What stands before the brace that balances `depth` open ones and the one of
the expression, and what stands after it. -/
def spanBody : Nat → List Char → Option (List Char × List Char)
  | _, [] => none
  | depth, '{' :: cs => (spanBody (depth + 1) cs).map fun (body, rest) => ('{' :: body, rest)
  | 0, '}' :: cs => some ([], cs)
  | depth + 1, '}' :: cs => (spanBody depth cs).map fun (body, rest) => ('}' :: body, rest)
  | depth, c :: cs => (spanBody depth cs).map fun (body, rest) => (c :: body, rest)

theorem spanBody_shorter {depth : Nat} {cs body rest : List Char}
    (h : spanBody depth cs = some (body, rest)) : rest.length < cs.length := by
  fun_induction spanBody depth cs generalizing body rest with
  | case1 => simp at h
  | case2 depth cs ih =>
    obtain ⟨⟨b, r⟩, hb, heq⟩ := Option.map_eq_some_iff.1 h
    have := ih hb
    simp_all
    omega
  | case3 cs =>
    simp_all
  | case4 depth cs ih =>
    obtain ⟨⟨b, r⟩, hb, heq⟩ := Option.map_eq_some_iff.1 h
    have := ih hb
    simp_all
    omega
  | case5 depth c cs _ _ _ ih =>
    obtain ⟨⟨b, r⟩, hb, heq⟩ := Option.map_eq_some_iff.1 h
    have := ih hb
    simp_all
    omega

/-- The literal of characters, put before other segments unless it is empty. -/
def withLiteral (literal : List Char) (segments : List Segment) : List Segment :=
  if literal.isEmpty then segments else .literal (String.ofList literal) :: segments

/-- Cuts characters, the first of which is at `offset`, into segments. `literal`
holds, last first, the characters since the last expression. -/
def scan (source : String) (offset : Nat) (literal : List Char) :
    List Char → Except MarkupError (List Segment)
  | [] => .ok (withLiteral literal.reverse [])
  | '#' :: '{' :: cs =>
    match _h : spanBody 0 cs with
    | none => .error { fault := .unterminatedExpression source offset }
    | some (body, rest) => do
      let stop := offset + 2 + byteLength body + 1
      let e ← Expression.parse body ⟨offset, stop⟩
      let segments ← scan source stop [] rest
      return withLiteral literal.reverse (.expression e :: segments)
  | c :: cs => scan source (offset + c.utf8Size) (c :: literal) cs
termination_by cs => cs.length
decreasing_by
  · have := spanBody_shorter _h
    simp_wf
    omega
  · simp_wf

/-- A template that is one literal. -/
def ofLiteral (text : String) : Template := ⟨text, [.literal text]⟩

/-- Reads a template. A text without expressions is one literal. -/
def parse (source : String) : Except MarkupError Template := do
  match ← scan source 0 [] source.toList with
  | [] => return ofLiteral source
  | segments => return ⟨source, segments⟩

def expressions (t : Template) : List Expression := t.segments.filterMap Segment.expression?

def isLiteral (t : Template) : Bool := t.expressions.isEmpty

/-- Whether any of its paths is followed. -/
def isLive (t : Template) : Bool := t.expressions.any Expression.isExplicit

/-- The paths that are followed. -/
def livePaths (t : Template) : List Path :=
  (t.expressions.filter Expression.isExplicit).map Expression.path

/-- The text of a segment. -/
def composeSegment (data : DataSource) (root : String) : Segment → Except MarkupError String
  | .literal text => .ok text
  | .expression e => (e.path.resolve data root).map Json.inserted

/-- The text of the template, with the values of its paths. The first path
without a value is reported. -/
def compose (t : Template) (data : DataSource) (root : String) : Except MarkupError String :=
  (t.segments.mapM (composeSegment data root)).map String.join

end Template

end ViewMarkup
