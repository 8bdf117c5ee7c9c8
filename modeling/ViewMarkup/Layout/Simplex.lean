/-
# The simplex method

A dictionary writes some columns, the basic ones, in terms of all others. A
column is an unknown, which may take any value, or a slack, which is never
negative. The rows of slacks have constants that are not negative, so setting
all other columns to zero satisfies every constraint taken up so far.

A constraint becomes an equation between columns: an inequality gets a slack,
and a constraint that need not hold gets two, which measure by how much it is
missed to either side. The equation is solved for an unknown if it has one,
else for a slack of its own. If neither is possible, the equation is missed at
first, and columns are exchanged until it is missed as little as possible:
the constraint is refused unless that is nothing.

Pivots are chosen by least index, which never comes back to a dictionary it has
left; so the number of pivots is at most the number of ways to choose the basic
columns.

Key definitions: `Dictionary`, `Dictionary.pivot`, `Dictionary.minimise`,
`Dictionary.addEquation`, `simplex`.
-/
import ViewMarkup.Layout.Solver

namespace ViewMarkup

-- Powers are the core library's, whatever else is in scope.
attribute [local instance (high)] instPowNat

inductive Column
  | unknown (x : Unknown)
  | slack (index : Nat)
  deriving DecidableEq

namespace Column

def unknown? : Column → Option Unknown
  | unknown x => some x
  | slack _ => none

def slack? : Column → Option Nat
  | unknown _ => none
  | slack index => some index

end Column

/-- The basic columns with their rows, the weights of the slacks that count, and
the number of slacks so far. -/
structure Dictionary where
  rows : List (Column × Linear Column) := []
  weights : List (Nat × Rat) := []
  slacks : Nat := 0

namespace Dictionary

/-- What is missed by less than this is not missed, and a coefficient nearer to
zero is none. -/
def tolerance : Rat := 1 / 100000000

/-- An expression in terms of the columns that are not basic. -/
def reduce (rows : List (Column × Linear Column)) (e : Linear Column) : Linear Column :=
  e.terms.foldl
    (fun sum t => sum.add (((rows.lookup t.1).getD (.var t.1)).scale t.2)) (.const e.constant)

/-- Puts an expression in the place of a column in every row. -/
def replaceAll (c : Column) (f : Linear Column) (rows : List (Column × Linear Column)) :
    List (Column × Linear Column) :=
  rows.map fun row => (row.1, row.2.replace c f)

/-- Makes a column basic that is not, by an equation that has it. -/
def solveFor (c : Column) (equation : Linear Column) (rows : List (Column × Linear Column)) :
    List (Column × Linear Column) :=
  let solved := equation.solvedFor c
  (c, solved) :: replaceAll c solved rows

/-- Exchanges a basic column and one that is not. -/
def pivot (leaving entering : Column) (rows : List (Column × Linear Column)) :
    List (Column × Linear Column) :=
  match rows.lookup leaving with
  | none => rows
  | some row =>
    solveFor entering (row.sub (.var leaving)) (rows.filter fun r => r.1 ≠ leaving)

/-- The first slack that would lower the objective. -/
def entering? (objective : Linear Column) : Option Nat :=
  objective.terms.foldl
    (fun best t =>
      match t.1.slack? with
      | some index => if t.2 < 0 && best.all (index < ·) then some index else best
      | none => best) none

/-- How far a column can grow until the slack of a row is zero. -/
def room? (entering : Column) (row : Column × Linear Column) : Option (Nat × Rat) :=
  let k := row.2.coefficient entering
  row.1.slack?.bind fun index =>
    if k < 0 then some (index, row.2.constant / -k) else none

/-- The slack that first becomes zero when a column grows. -/
def leaving? (entering : Column) (rows : List (Column × Linear Column)) : Option Nat :=
  ((rows.filterMap (room? entering)).foldl
    (fun (best : Option (Nat × Rat)) (r : Nat × Rat) =>
      match best with
      | none => some r
      | some b => if r.2 < b.2 || (r.2 == b.2 && r.1 < b.1) then some r else best) none).map
        Prod.fst

/-- Lowers the objective until no slack lowers it further. -/
def minimise : Nat → Linear Column → List (Column × Linear Column) →
    Linear Column × List (Column × Linear Column)
  | 0, objective, rows => (objective, rows)
  | fuel + 1, objective, rows =>
    match entering? objective with
    | none => (objective, rows)
    | some entering =>
      match leaving? (.slack entering) rows with
      | none => (objective, rows)
      | some leaving =>
        let rows := pivot (.slack leaving) (.slack entering) rows
        minimise fuel (reduce rows objective) rows

/-- A bound on the ways to choose the basic columns. -/
def choices (d : Dictionary) : Nat := 2 ^ (d.rows.length + d.slacks + 2)

/-- Removes a slack that is zero from a dictionary. -/
def dropZero (c : Column) (rows : List (Column × Linear Column)) :
    List (Column × Linear Column) :=
  rows.map fun row => (row.1, row.2.without c)

/-- Takes the slack that measures a miss out of the dictionary, the miss being as
small as possible; none if it is not small. -/
def settle (miss : Column) (rows : List (Column × Linear Column)) :
    Option (List (Column × Linear Column)) :=
  match rows.lookup miss with
  | none => some (dropZero miss rows)
  | some row =>
    let others := rows.filter fun r => r.1 ≠ miss
    if tolerance ≤ row.constant then none
    else if row.constant = 0 then
      match row.terms with
      | [] => some others
      | (c, _) :: _ => some (dropZero miss (pivot miss c rows))
    else some others

/-- A slack of the equation's own that solving for leaves not negative. -/
def ownSlack? (own : List Nat) (equation : Linear Column) : Option Column :=
  (own.map Column.slack).find? fun c =>
    let k := equation.coefficient c
    k ≠ 0 && 0 ≤ -equation.constant / k

/-- Takes up an equation, the expression being zero; `own` are the slacks that
occur in it alone. -/
def addEquation (d : Dictionary) (own : List Nat) (equation : Linear Column) : Option Dictionary :=
  match (equation.terms.find? fun t => t.1.unknown?.isSome).map Prod.fst with
  | some c => some { d with rows := solveFor c equation d.rows }
  | none =>
    match ownSlack? own equation with
    | some c => some { d with rows := solveFor c equation d.rows }
    | none =>
      let equation := if equation.constant < 0 then equation.neg else equation
      let miss := Column.slack d.slacks
      let (_, rows) := minimise d.choices equation ((miss, equation) :: d.rows)
      (settle miss rows).map fun rows => { d with rows, slacks := d.slacks + 1 }

/-- The slacks of a constraint, by how much each adds to the expression that is
to be zero and by its weight: one below and one above. -/
def slackTerms (relation : Relation) (weight : Option Rat) : List (Rat × Rat) :=
  match relation, weight with
  | .equal, none => []
  | .atLeast, none => [(-1, 0)]
  | .atMost, none => [(1, 0)]
  | .equal, some w => [(-1, w), (1, w)]
  | .atLeast, some w => [(-1, 0), (1, w)]
  | .atMost, some w => [(-1, w), (1, 0)]

/-- The expression over columns, without coefficients that count as none. -/
def columns (e : Linear Unknown) : Linear Column :=
  ⟨e.constant, (e.terms.filter fun t => !(-tolerance < t.2 && t.2 < tolerance)).map
    fun t => (.unknown t.1, t.2)⟩

/-- Takes up a constraint. -/
def addConstraint (c : LinearConstraint) (d : Dictionary) : Option Dictionary :=
  let slacks := (slackTerms c.relation c.strength.weight?).zipIdx d.slacks
  let equation := slacks.foldl
    (fun (e : Linear Column) s => e.add ((Linear.var (.slack s.2)).scale s.1.1))
    (reduce d.rows (columns c.expression))
  let weights := (slacks.filter fun s => s.1.2 ≠ 0).map fun s => (s.2, s.1.2)
  addEquation { d with weights := d.weights ++ weights, slacks := d.slacks + slacks.length }
    (slacks.map Prod.snd) equation

/-- The weighted violation, in terms of the columns that are not basic. -/
def violation (d : Dictionary) : Linear Column :=
  reduce d.rows ⟨0, d.weights.map fun w => (.slack w.1, w.2)⟩

/-- The values of the unknowns at the least violation. -/
def solution (d : Dictionary) : List (Unknown × Rat) :=
  (minimise d.choices d.violation d.rows).2.filterMap fun row =>
    row.1.unknown?.map fun x => (x, row.2.constant)

end Dictionary

/-- Solving by the simplex method. -/
def simplex : Solver Dictionary := ⟨{}, Dictionary.addConstraint, Dictionary.solution⟩

end ViewMarkup
