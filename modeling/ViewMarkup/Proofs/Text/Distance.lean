/-
# The edit distance is the least number of edits

An edit inserts, deletes or replaces one character. How many edits it takes at least
to turn one text into another is given by a recursion on both texts (`levenshtein`):
where an alignment of the texts pairs their characters, edits are only made at
characters without an equal partner, and any edits can be read as an alignment that
costs no more.

The recursion goes from the ends of the texts as well as from their starts, so the
table of the distances between all parts from the starts can be filled row by row. A
row is filled from the one before it alone, also where it takes the place of the row
before, cell by cell (`rollingDistance`).

Key definitions: `Edit`, `EditedIn`, `levenshtein`, `Alignment`, `rowOf`,
`rollingDistance`.
Key theorems: `Alignment.trans`, `Alignment.levenshtein_le`, `exists_alignment_of_edits`,
`levenshtein_concat_concat`, `nextRow_rowOf`, `overwrite_eq`, `editDistance_is_least`.
-/
import Mathlib.Data.List.Basic
import Mathlib.Order.Bounds.Basic
import Mathlib.Order.MinMax
import ViewMarkup.Text.Distance

namespace ViewMarkup

/-! ### Edits -/

/-- One character is inserted, deleted or replaced. -/
inductive Edit : List Char → List Char → Prop
  | insert (front : List Char) (c : Char) (back : List Char) :
    Edit (front ++ back) (front ++ c :: back)
  | delete (front : List Char) (c : Char) (back : List Char) :
    Edit (front ++ c :: back) (front ++ back)
  | substitute (front : List Char) (c d : Char) (back : List Char) :
    Edit (front ++ c :: back) (front ++ d :: back)

/-- So many edits, one after another, turn the first text into the second. -/
inductive EditedIn : Nat → List Char → List Char → Prop
  | none (a : List Char) : EditedIn 0 a a
  | step {n : Nat} {a b c : List Char} (h : Edit a b) (hs : EditedIn n b c) : EditedIn (n + 1) a c

/-- What it costs that one character stands for another. -/
def mismatch (c d : Char) : Nat := if c = d then 0 else 1

theorem mismatch_self (c : Char) : mismatch c c = 0 := if_pos rfl

theorem mismatch_of_ne {c d : Char} (h : c ≠ d) : mismatch c d = 1 := if_neg h

theorem mismatch_eq_zero_iff {c d : Char} : mismatch c d = 0 ↔ c = d := by
  rw [mismatch]
  split <;> simp [*]

theorem mismatch_le_one (c d : Char) : mismatch c d ≤ 1 := by
  rw [mismatch]
  split <;> omega

theorem mismatch_comm (c d : Char) : mismatch c d = mismatch d c := by
  simp only [mismatch, eq_comm]

/-- Where the first and the last of three characters differ, one of them differs from the
one between. -/
theorem mismatch_triangle (c d e : Char) : mismatch c e ≤ mismatch c d + mismatch d e := by
  by_cases hcd : c = d
  · rw [hcd]
    exact Nat.le_add_left _ _
  · rw [mismatch_of_ne hcd]
    exact (mismatch_le_one c e).trans (Nat.le_add_right _ _)

/-- The distance of two texts: where both have a first character, it is deleted,
inserted, or left as it is or replaced, whatever is cheapest with the rest. -/
def levenshtein : List Char → List Char → Nat
  | [], b => b.length
  | a, [] => a.length
  | c :: a, d :: b =>
    min (min (levenshtein a (d :: b) + 1) (levenshtein (c :: a) b + 1))
      (levenshtein a b + mismatch c d)
termination_by a b => a.length + b.length

/-- The characters of two texts are paired in order, but for those that are inserted
or deleted. The number counts these and the pairs that differ. -/
inductive Alignment : List Char → List Char → Nat → Prop
  | nil : Alignment [] [] 0
  | pair {a b : List Char} {n : Nat} (c d : Char) (h : Alignment a b n) :
    Alignment (c :: a) (d :: b) (n + mismatch c d)
  | insert {a b : List Char} {n : Nat} (d : Char) (h : Alignment a b n) :
    Alignment a (d :: b) (n + 1)
  | delete {a b : List Char} {n : Nat} (c : Char) (h : Alignment a b n) :
    Alignment (c :: a) b (n + 1)

/-! ### Alignments -/

namespace Alignment

variable {a b a' b' : List Char} {m n : Nat}

theorem refl : ∀ a : List Char, Alignment a a 0
  | [] => .nil
  | c :: a => by
    have hpair := Alignment.pair c c (refl a)
    rwa [mismatch_self] at hpair

theorem insertAll : ∀ b : List Char, Alignment [] b b.length
  | [] => .nil
  | d :: b => .insert d (insertAll b)

theorem symm (h : Alignment a b n) : Alignment b a n := by
  induction h with
  | nil => exact .nil
  | pair c d _ ih =>
    rw [mismatch_comm]
    exact .pair d c ih
  | insert d _ ih => exact .delete d ih
  | delete c _ ih => exact .insert c ih

theorem append (h : Alignment a b m) (h' : Alignment a' b' n) :
    Alignment (a ++ a') (b ++ b') (m + n) := by
  induction h with
  | nil => rwa [Nat.zero_add]
  | pair c d _ ih =>
    rw [Nat.add_right_comm]
    exact .pair c d ih
  | insert d _ ih =>
    rw [Nat.add_right_comm]
    exact .insert d ih
  | delete c _ ih =>
    rw [Nat.add_right_comm]
    exact .delete c ih

/-- Texts are aligned from their ends as from their starts. -/
theorem reverse (h : Alignment a b n) : Alignment a.reverse b.reverse n := by
  induction h with
  | nil => exact .nil
  | @pair a b n c d _ ih =>
    rw [List.reverse_cons, List.reverse_cons, ← Nat.zero_add (mismatch c d)]
    exact ih.append (.pair c d .nil)
  | @insert a b n d _ ih =>
    rw [List.reverse_cons, ← List.append_nil a.reverse]
    exact ih.append (.insert d .nil)
  | @delete a b n c _ ih =>
    rw [List.reverse_cons, ← List.append_nil b.reverse]
    exact ih.append (.delete c .nil)

/-- Two alignments, one after the other, are one that costs no more than both. -/
theorem trans {a b c : List Char} {m n : Nat} (h : Alignment a b m) (h' : Alignment b c n) :
    ∃ k ≤ m + n, Alignment a c k := by
  match h, h' with
  | h, .insert z h' =>
    obtain ⟨k, hk, hac⟩ := h.trans h'
    exact ⟨k + 1, by omega, .insert z hac⟩
  | .delete x h, h' =>
    obtain ⟨k, hk, hac⟩ := h.trans h'
    exact ⟨k + 1, by omega, .delete x hac⟩
  | .nil, .nil => exact ⟨0, Nat.le_refl _, .nil⟩
  | .pair x y h, .pair _ z h' =>
    obtain ⟨k, hk, hac⟩ := h.trans h'
    have htriangle := mismatch_triangle x y z
    exact ⟨k + mismatch x z, by omega, .pair x z hac⟩
  | .pair x _ h, .delete _ h' =>
    obtain ⟨k, hk, hac⟩ := h.trans h'
    exact ⟨k + 1, by omega, .delete x hac⟩
  | .insert _ h, .pair _ z h' =>
    obtain ⟨k, hk, hac⟩ := h.trans h'
    exact ⟨k + 1, by omega, .insert z hac⟩
  | .insert _ h, .delete _ h' =>
    obtain ⟨k, hk, hac⟩ := h.trans h'
    exact ⟨k, by omega, hac⟩
termination_by a.length + b.length + c.length

theorem eq_of_zero (h : Alignment a b n) (hn : n = 0) : a = b := by
  induction h with
  | nil => rfl
  | pair c d _ ih =>
    obtain ⟨hrest, hpair⟩ := Nat.add_eq_zero_iff.1 hn
    rw [ih hrest, mismatch_eq_zero_iff.1 hpair]
  | _ => cases hn

end Alignment

/-! ### The least number of edits -/

section

variable {a b c : List Char} {m n : Nat}

theorem Edit.cons (c : Char) (h : Edit a b) : Edit (c :: a) (c :: b) := by
  cases h with
  | insert front d back => exact .insert (c :: front) d back
  | delete front d back => exact .delete (c :: front) d back
  | substitute front d e back => exact .substitute (c :: front) d e back

theorem EditedIn.cons (c : Char) (h : EditedIn n a b) : EditedIn n (c :: a) (c :: b) := by
  induction h with
  | none a => exact .none (c :: a)
  | step h _ ih => exact .step (h.cons c) ih

/-- Texts are edited as they are aligned. -/
theorem Alignment.editedIn (h : Alignment a b n) : EditedIn n a b := by
  induction h with
  | nil => exact .none []
  | @pair a _ _ c d _ ih =>
    by_cases heq : c = d
    · rw [heq, mismatch_self]
      exact ih.cons d
    · rw [mismatch_of_ne heq]
      exact .step (.substitute [] c d a) (ih.cons d)
  | @insert a _ _ d _ ih => exact .step (.insert [] d a) (ih.cons d)
  | @delete a _ _ c _ ih => exact .step (.delete [] c a) ih

/-- An edit is an alignment of equal characters, but for one. -/
theorem Edit.exists_alignment (h : Edit a b) : ∃ n ≤ 1, Alignment a b n := by
  cases h with
  | insert front c back =>
    exact ⟨1, le_rfl, (Alignment.refl front).append (.insert c (.refl back))⟩
  | delete front c back =>
    exact ⟨1, le_rfl, (Alignment.refl front).append (.delete c (.refl back))⟩
  | substitute front c d back =>
    refine ⟨_, ?_, (Alignment.refl front).append (.pair c d (.refl back))⟩
    rw [Nat.zero_add, Nat.zero_add]
    exact mismatch_le_one c d

/-- Edits are read as an alignment that costs no more. -/
theorem exists_alignment_of_edits (h : EditedIn n a b) : ∃ m ≤ n, Alignment a b m := by
  induction h with
  | none a => exact ⟨0, le_rfl, .refl a⟩
  | step h _ ih =>
    obtain ⟨m, hm, halign⟩ := ih
    obtain ⟨l, hl, hedit⟩ := h.exists_alignment
    obtain ⟨k, hk, halign⟩ := hedit.trans halign
    exact ⟨k, by omega, halign⟩

/-! ### The recursion -/

@[simp] theorem levenshtein_nil_left (b : List Char) : levenshtein [] b = b.length := by
  rw [levenshtein]

@[simp] theorem levenshtein_nil_right (a : List Char) : levenshtein a [] = a.length := by
  cases a with
  | nil => rw [levenshtein]
  | cons c a =>
    rw [levenshtein]
    simp

theorem levenshtein_cons_cons (c d : Char) (a b : List Char) :
    levenshtein (c :: a) (d :: b) = min (min (levenshtein a (d :: b) + 1)
      (levenshtein (c :: a) b + 1)) (levenshtein a b + mismatch c d) := by
  rw [levenshtein]

theorem levenshtein_insert_le (d : Char) (a b : List Char) :
    levenshtein a (d :: b) ≤ levenshtein a b + 1 := by
  cases a with
  | nil => simp
  | cons c a =>
    rw [levenshtein_cons_cons]
    omega

theorem levenshtein_delete_le (c : Char) (a b : List Char) :
    levenshtein (c :: a) b ≤ levenshtein a b + 1 := by
  cases b with
  | nil => simp
  | cons d b =>
    rw [levenshtein_cons_cons]
    omega

theorem levenshtein_cons_cons_le (c d : Char) (a b : List Char) :
    levenshtein (c :: a) (d :: b) ≤ levenshtein a b + mismatch c d := by
  rw [levenshtein_cons_cons]
  exact min_le_right _ _

/-- No alignment costs less than the distance. -/
theorem Alignment.levenshtein_le (h : Alignment a b n) : levenshtein a b ≤ n := by
  induction h with
  | nil => simp
  | @pair a b n c d _ ih =>
    exact (levenshtein_cons_cons_le c d a b).trans (Nat.add_le_add_right ih _)
  | @insert a b n d _ ih => exact (levenshtein_insert_le d a b).trans (Nat.succ_le_succ ih)
  | @delete a b n c _ ih => exact (levenshtein_delete_le c a b).trans (Nat.succ_le_succ ih)

/-- Some alignment costs the distance. -/
theorem alignment_levenshtein (a b : List Char) : Alignment a b (levenshtein a b) := by
  induction a, b using levenshtein.induct with
  | case1 b =>
    rw [levenshtein_nil_left]
    exact .insertAll b
  | case2 a =>
    rw [levenshtein_nil_right]
    exact (Alignment.insertAll a).symm
  | case3 c a d b ihdelete ihinsert ihpair =>
    rw [levenshtein_cons_cons]
    -- The least of the three costs is one of them.
    rcases min_choice (min (levenshtein a (d :: b) + 1) (levenshtein (c :: a) b + 1))
      (levenshtein a b + mismatch c d) with hleast | hleast
    · rw [hleast]
      rcases min_choice (levenshtein a (d :: b) + 1) (levenshtein (c :: a) b + 1) with
        hleast | hleast
      · rw [hleast]
        exact .delete c ihdelete
      · rw [hleast]
        exact .insert d ihinsert
    · rw [hleast]
      exact .pair c d ihpair

/-- The distance is the least number of edits. -/
theorem levenshtein_isLeast (a b : List Char) : IsLeast {n | EditedIn n a b} (levenshtein a b) := by
  refine ⟨(alignment_levenshtein a b).editedIn, fun n hn => ?_⟩
  obtain ⟨m, hm, halign⟩ := exists_alignment_of_edits hn
  exact halign.levenshtein_le.trans hm

theorem levenshtein_comm (a b : List Char) : levenshtein a b = levenshtein b a :=
  le_antisymm (alignment_levenshtein b a).symm.levenshtein_le
    (alignment_levenshtein a b).symm.levenshtein_le

theorem levenshtein_eq_zero_iff : levenshtein a b = 0 ↔ a = b := by
  constructor
  · exact (alignment_levenshtein a b).eq_of_zero
  · rintro rfl
    exact Nat.le_zero.1 (Alignment.refl a).levenshtein_le

theorem levenshtein_reverse (a b : List Char) :
    levenshtein a.reverse b.reverse = levenshtein a b := by
  refine le_antisymm (alignment_levenshtein a b).reverse.levenshtein_le ?_
  have hback := (alignment_levenshtein a.reverse b.reverse).reverse.levenshtein_le
  rwa [List.reverse_reverse, List.reverse_reverse] at hback

/-- The recursion at the ends of both texts. -/
theorem levenshtein_concat_concat (a b : List Char) (c d : Char) :
    levenshtein (a ++ [c]) (b ++ [d]) = min (min (levenshtein a (b ++ [d]) + 1)
      (levenshtein (a ++ [c]) b + 1)) (levenshtein a b + mismatch c d) := by
  have hends := levenshtein_cons_cons c d a.reverse b.reverse
  rwa [← List.reverse_concat, ← List.reverse_concat, levenshtein_reverse, levenshtein_reverse,
    levenshtein_reverse, levenshtein_reverse] at hends

end

/-! ### Rows -/

/-- The distances of a text from `front` and from every longer part of
`front ++ word` that starts with `front`. -/
def rowOf (a : List Char) : List Char → List Char → List Nat
  | front, [] => [levenshtein a front]
  | front, d :: word => levenshtein a front :: rowOf a (front ++ [d]) word

theorem exists_rowOf_eq_cons (a front word : List Char) :
    ∃ row, rowOf a front word = levenshtein a front :: row := by
  cases word <;> exact ⟨_, rfl⟩

theorem length_rowOf (a : List Char) : ∀ front word : List Char,
    (rowOf a front word).length = word.length + 1
  | _, [] => rfl
  | front, d :: word => congrArg (· + 1) (length_rowOf a (front ++ [d]) word)

theorem rowOf_nil : ∀ front word : List Char,
    rowOf [] front word = List.range' front.length (word.length + 1)
  | front, [] => by simp [rowOf]
  | front, d :: word => by
    rw [rowOf, rowOf_nil (front ++ [d]) word, List.length_cons,
      List.range'_succ (n := word.length + 1)]
    simp

/-- The row of the empty text. -/
theorem range_eq_rowOf (b : List Char) : List.range (b.length + 1) = rowOf [] [] b := by
  rw [rowOf_nil, List.range_eq_range', List.length_nil]

theorem getLastD_rowOf (a : List Char) : ∀ front word : List Char,
    (rowOf a front word).getLastD 0 = levenshtein a (front ++ word)
  | front, [] => by simp [rowOf]
  | front, d :: word => by
    have hlast := getLastD_rowOf a (front ++ [d]) word
    obtain ⟨row, hrow⟩ := exists_rowOf_eq_cons a (front ++ [d]) word
    rw [List.append_assoc, List.singleton_append, hrow] at hlast
    rw [rowOf, hrow]
    exact hlast

/-- From the cells of a row at a place and after it, and the cell at this place in the
row below, all cells after it in the row below are filled. -/
theorem nextRow_rowOf (a : List Char) (c : Char) : ∀ front word : List Char,
    levenshtein (a ++ [c]) front ::
      nextRow c word (rowOf a front word) (levenshtein (a ++ [c]) front) =
        rowOf (a ++ [c]) front word
  | front, [] => by rw [nextRow, rowOf]; simp
  | front, d :: word => by
    have hnext := nextRow_rowOf a c (front ++ [d]) word
    obtain ⟨row, hrow⟩ := exists_rowOf_eq_cons a (front ++ [d]) word
    rw [hrow, levenshtein_concat_concat] at hnext
    rw [rowOf, rowOf, hrow, nextRow]
    exact congrArg _ hnext

theorem extendRow_rowOf (a b : List Char) (c : Char) :
    extendRow b (rowOf a [] b) c = rowOf (a ++ [c]) [] b := by
  have hhead : (rowOf a [] b).headD 0 + 1 = levenshtein (a ++ [c]) [] := by
    obtain ⟨row, hrow⟩ := exists_rowOf_eq_cons a [] b
    simp [hrow]
  rw [extendRow, hhead, nextRow_rowOf]

theorem foldl_extendRow (b : List Char) : ∀ a front : List Char,
    a.foldl (extendRow b) (rowOf front [] b) = rowOf (front ++ a) [] b
  | [], front => by rw [List.foldl_nil, List.append_nil]
  | c :: a, front => by
    rw [List.foldl_cons, extendRow_rowOf, foldl_extendRow b a, List.append_assoc,
      List.singleton_append]

theorem editDistance_eq_levenshtein (a b : String) :
    editDistance a b = levenshtein a.toList b.toList := by
  rw [editDistance, range_eq_rowOf, foldl_extendRow, getLastD_rowOf, List.nil_append,
    List.nil_append]

/-! ### One row in place -/

/-- The cells of a row after a place give way to those of the row below, one after
another. `diagonal` is the cell that stood at the place before. -/
def overwrite (c : Char) : List Char → Nat → Nat → List Nat → List Nat
  | [], _, _, row => row
  | d :: word, place, diagonal, row =>
    let above := row.getD (place + 1) 0
    let cell := min (min (above + 1) (row.getD place 0 + 1)) (diagonal + mismatch c d)
    overwrite c word (place + 1) above (row.set (place + 1) cell)

/-- The row of one more character of the first text, the one after `i` others. -/
def rollRow (word : List Char) (row : List Nat) (step : Char × Nat) : List Nat :=
  overwrite step.1 word 0 (row.getD 0 0) (row.set 0 (step.2 + 1))

/-- The distance as one row of the table gives it that is overwritten again and again. -/
def rollingDistance (a b : List Char) : Nat :=
  if a = [] then b.length
  else if b = [] then a.length
  else (a.zipIdx.foldl (rollRow b) (List.range (b.length + 1))).getD b.length 0

/-- Up to the place the row holds new cells, after it old ones; what takes their place
is the rest of the next row. -/
theorem overwrite_eq (c : Char) : ∀ (word : List Char) (done old : List Nat) (left diagonal : Nat),
    old.length = word.length →
      overwrite c word done.length diagonal (done ++ left :: old) =
        done ++ left :: nextRow c word (diagonal :: old) left
  | [], done, [], left, diagonal, _ => by simp [overwrite, nextRow]
  | d :: word, done, above :: old, left, diagonal, h => by
    have hrest := overwrite_eq c word (done ++ [left]) old
      (min (min (above + 1) (left + 1)) (diagonal + mismatch c d)) above (Nat.succ.inj h)
    rw [List.length_append, List.length_singleton, List.append_assoc, List.append_assoc,
      List.singleton_append, List.singleton_append] at hrest
    have habove : (done ++ left :: above :: old).getD (done.length + 1) 0 = above := by simp
    have hleft : (done ++ left :: above :: old).getD done.length 0 = left := by simp
    have hset (cell : Nat) : (done ++ left :: above :: old).set (done.length + 1) cell =
        done ++ left :: cell :: old := by simp
    rw [overwrite, habove, hleft, hset, hrest, nextRow]
    rfl

theorem rollRow_rowOf (a b : List Char) (c : Char) :
    rollRow b (rowOf a [] b) (c, a.length) = rowOf (a ++ [c]) [] b := by
  obtain ⟨row, hrow⟩ := exists_rowOf_eq_cons a [] b
  have hlength := length_rowOf a [] b
  rw [levenshtein_nil_right] at hrow
  rw [hrow, List.length_cons] at hlength
  rw [← extendRow_rowOf, hrow]
  exact overwrite_eq c b [] row (a.length + 1) a.length (Nat.succ.inj hlength)

theorem foldl_rollRow (b : List Char) : ∀ a front : List Char,
    (a.zipIdx front.length).foldl (rollRow b) (rowOf front [] b) = rowOf (front ++ a) [] b
  | [], front => by rw [List.zipIdx_nil, List.foldl_nil, List.append_nil]
  | c :: a, front => by
    have hrest := foldl_rollRow b a (front ++ [c])
    rw [List.length_append, List.length_singleton, List.append_assoc,
      List.singleton_append] at hrest
    rw [List.zipIdx_cons, List.foldl_cons, rollRow_rowOf, hrest]

theorem rollingDistance_eq_levenshtein (a b : List Char) :
    rollingDistance a b = levenshtein a b := by
  have hlast : (rowOf a [] b).getD b.length 0 = (rowOf a [] b).getLastD 0 := by
    rw [List.getLastD_eq_getLast?, List.getLast?_eq_getElem?, length_rowOf, Nat.add_sub_cancel,
      List.getD_eq_getElem?_getD]
  unfold rollingDistance
  split
  · rename_i hnil
    rw [hnil, levenshtein_nil_left]
  · split
    · rename_i hnil
      rw [hnil, levenshtein_nil_right]
    · have hrows := foldl_rollRow b a []
      rw [List.length_nil, List.nil_append] at hrows
      rw [range_eq_rowOf, hrows, hlast, getLastD_rowOf, List.nil_append]

/-! ### The edit distance of texts -/

/-- **The edit distance is the least number of edits.** It is given by the recursion on
both texts, and by one row of the table that is overwritten for each character of the
first. So many edits turn the first text into the second, and fewer do not. It is the
same both ways, and none exactly between equal texts. -/
theorem editDistance_is_least (a b : String) :
    editDistance a b = levenshtein a.toList b.toList ∧
      editDistance a b = rollingDistance a.toList b.toList ∧
      IsLeast {n | EditedIn n a.toList b.toList} (editDistance a b) ∧
      editDistance a b = editDistance b a ∧ (editDistance a b = 0 ↔ a = b) := by
  rw [rollingDistance_eq_levenshtein, editDistance_eq_levenshtein, editDistance_eq_levenshtein,
    levenshtein_eq_zero_iff, String.toList_inj]
  exact ⟨rfl, rfl, levenshtein_isLeast _ _, levenshtein_comm _ _, Iff.rfl⟩

/-- Exchanged neighbors are two edits. -/
example : editDistance "éa" "aé" = 2 := by decide +kernel

end ViewMarkup
