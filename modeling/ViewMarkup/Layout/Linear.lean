/-
# Linear expressions

A constant and multiples of unknowns, with rational coefficients. Each unknown
has at most one term, and no term is zero, as long as expressions are made with
the operations here.

Key definitions: `Linear`, `Linear.eval`, `Linear.add`, `Linear.scale`,
`Linear.replace`.
-/

namespace ViewMarkup

structure Linear (α : Type) where
  constant : Rat
  terms : List (α × Rat)
  deriving DecidableEq

namespace Linear

variable {α : Type}

def const (q : Rat) : Linear α := ⟨q, []⟩

def var (x : α) : Linear α := ⟨0, [(x, 1)]⟩

/-- The value when the unknowns have these values. -/
def eval (values : α → Rat) (e : Linear α) : Rat :=
  e.terms.foldr (fun t total => t.2 * values t.1 + total) e.constant

/-- The multiple of every part. -/
def scale (k : Rat) (e : Linear α) : Linear α :=
  if k = 0 then const 0 else ⟨k * e.constant, e.terms.map fun t => (t.1, k * t.2)⟩

def neg (e : Linear α) : Linear α := e.scale (-1)

variable [DecidableEq α]

/-- Adds a multiple of an unknown to the terms. -/
def addTerm (x : α) (k : Rat) : List (α × Rat) → List (α × Rat)
  | [] => if k = 0 then [] else [(x, k)]
  | (y, q) :: rest =>
    if y = x then (if q + k = 0 then rest else (y, q + k) :: rest)
    else (y, q) :: addTerm x k rest

def add (e f : Linear α) : Linear α :=
  ⟨e.constant + f.constant, f.terms.foldl (fun terms t => addTerm t.1 t.2 terms) e.terms⟩

def sub (e f : Linear α) : Linear α := e.add f.neg

/-- The coefficient of an unknown. -/
def coefficient (x : α) (e : Linear α) : Rat := (e.terms.lookup x).getD 0

/-- The expression without the term of an unknown. -/
def without (x : α) (e : Linear α) : Linear α := { e with terms := e.terms.filter (·.1 ≠ x) }

/-- Puts an expression in the place of an unknown. -/
def replace (e : Linear α) (x : α) (f : Linear α) : Linear α :=
  let k := e.coefficient x
  if k = 0 then e else (e.without x).add (f.scale k)

/-- What an unknown is if the expression is zero and the coefficient of the
unknown is not. -/
def solvedFor (x : α) (e : Linear α) : Linear α :=
  (e.without x).scale (-1 / e.coefficient x)

end Linear

end ViewMarkup
