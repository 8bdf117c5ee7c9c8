/-
# Starts and ends of texts

A text without its start is what comes after it, and a text without its last
character what comes before.

Key theorems: `dropStart?_eq_some_iff`, `dropStart?_eq_none_iff`,
`dropLast?_eq_some_iff`.
-/
import Mathlib.Data.List.Basic
import ViewMarkup.Text.Affix

namespace ViewMarkup

theorem dropStart?_append : ∀ start rest : List Char, dropStart? start (start ++ rest) = some rest
  | [], _ => rfl
  | s :: start, rest => by
    rw [List.cons_append, dropStart?, if_pos rfl, dropStart?_append start rest]

theorem dropStart?_eq_some_iff {start cs rest : List Char} :
    dropStart? start cs = some rest ↔ cs = start ++ rest := by
  constructor
  · intro h
    fun_induction dropStart? start cs with
    | case1 cs => exact Option.some.inj h
    | case2 s start => cases h
    | case3 start c cs ih => rw [List.cons_append, ih h]
    | case4 s start c cs hne => cases h
  · rintro rfl
    exact dropStart?_append start rest

theorem dropStart?_eq_none_iff {start cs : List Char} :
    dropStart? start cs = none ↔ ¬ start <+: cs := by
  rw [Option.eq_none_iff_forall_ne_some]
  constructor
  · rintro h ⟨rest, hrest⟩
    exact h rest (dropStart?_eq_some_iff.2 hrest.symm)
  · exact fun h rest hrest => h ⟨rest, (dropStart?_eq_some_iff.1 hrest).symm⟩

theorem dropLast?_append (last : Char) : ∀ front : List Char,
    dropLast? last (front ++ [last]) = some front
  | [] => if_pos rfl
  | [c] => by simp [dropLast?]
  | c :: d :: front => by
    rw [List.cons_append, List.cons_append, dropLast?, ← List.cons_append,
      dropLast?_append last (d :: front)]
    rfl

theorem dropLast?_eq_some_iff {last : Char} {cs front : List Char} :
    dropLast? last cs = some front ↔ cs = front ++ [last] := by
  constructor
  · intro h
    fun_induction dropLast? last cs generalizing front with
    | case1 => cases h
    | case2 => cases h; rfl
    | case3 c hne => cases h
    | case4 c d cs ih =>
      obtain ⟨rest, hrest, rfl⟩ := Option.map_eq_some_iff.1 h
      rw [List.cons_append, ← ih hrest]
  · rintro rfl
    exact dropLast?_append last front

end ViewMarkup
